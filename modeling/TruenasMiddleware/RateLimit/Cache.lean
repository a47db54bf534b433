import TruenasMiddleware.Auth.Credentials
import TruenasMiddleware.Foundation.Dict

/-! `utils/rate_limit/cache.py` and `Middleware.authorize_method_call`, which asks it. Neither
suspends between `add` and the answer, so one call is one step of the cache. -/

namespace TruenasMiddleware.RateLimit

open Auth Transition List Option Dict

structure RateLimitConfig where
  maxCalls : Nat := 20
  maxPeriod : Time := 60
  maxCacheEntries : Nat := 100
  separator : String := "_##_"

def config : RateLimitConfig := {}

structure RateLimitObject where
  numTimesCalled : Nat
  lastReset : Time

inductive AddressFamily
  | inet
  | inet6
  | unix
deriving DecidableEq

structure ConnectionOrigin where
  family : AddressFamily
  remAddr : Option String := none
  remPort : Option Int := none

def HA_HEARTBEAT_IPS : List String := ["169.254.10.1", "169.254.10.2"]

namespace ConnectionOrigin

def isUnixFamily (origin : ConnectionOrigin) : Bool := origin.family = .unix

def isHaConnection (origin : ConnectionOrigin) : Bool :=
  decide (origin.family ∈ [.inet, .inet6]) &&
    origin.remPort.any (fun port => decide (port ≤ 1024)) &&
    origin.remAddr.any fun address => decide (address ∈ HA_HEARTBEAT_IPS)

end ConnectionOrigin

abbrev Cache := List (String × RateLimitObject)

def cacheKey (methodName ip : String) : String := methodName ++ config.separator ++ ip

namespace Cache

variable (cache : Cache)

def rateLimitExceeded (now : Time) (methodName ip : String) : Cache × Bool :=
  let key := cacheKey methodName ip
  match cache.lookup key with
  | none => (cache, false)
  | some entry =>
    let entry : RateLimitObject :=
      if config.maxPeriod - (now - entry.lastReset) ≤ 0 then ⟨0, now⟩ else entry
    let entry := { entry with numTimesCalled := entry.numTimesCalled + 1 }
    (Dict.set key entry cache, decide (entry.numTimesCalled > config.maxCalls))

/-- The origin is `none` where the source has `None`. -/
def add (now : Time) (methodName : String) : Option ConnectionOrigin → Cache × Option String
  | none => (cache, none)
  | some origin =>
    if origin.isHaConnection || origin.isUnixFamily then (cache, none)
    else
      match origin.remAddr, origin.remPort with
      | some address, some _ =>
        let key := cacheKey methodName address
        (if key ∈ Dict.keys cache then cache else Dict.set key ⟨0, now⟩ cache, some address)
      | _, _ => (cache, none)

def cachePop (methodName ip : String) : Cache :=
  pop (cacheKey methodName ip) cache

def cacheClear (_ : Cache) : Cache := []

def maxEntriesReached : Bool := cache.length = config.maxCacheEntries

end Cache

structure App where
  origin : Option ConnectionOrigin
  authenticatedCredentials : Option Credentials := none

structure Method where
  noAuthRequired : Bool := false
  rateLimit : Bool := true
  noAuthzRequired : Bool := false

inductive Errno
  | ebusy
  | enotauthenticated
  | eacces

structure CallError where
  errmsg : String
  errno : Errno

def rateLimitExceededError : CallError := ⟨"Rate Limit Exceeded", .ebusy⟩

variable (cache : Cache)

/-- The error is `none` when the call may go on. Audit messages and the sleep before the
error are left out. -/
def authorizeMethodCall (now : Time) (app : App) (methodName : String)
    (method : Method) : Cache × Option CallError :=
  if method.noAuthRequired then
    if app.authenticatedCredentials.isSome then (cache, none)
    else if !method.rateLimit then (cache, none)
    else
      match cache.add now methodName app.origin with
      | (cache, none) => (cache, none)
      | (cache, some ipAdded) =>
        -- Both members of `any((…, …))` are evaluated.
        let full := cache.maxEntriesReached
        let (cache, exceeded) := cache.rateLimitExceeded now methodName ipAdded
        (cache, if full || exceeded then some rateLimitExceededError else none)
  else
    match app.authenticatedCredentials with
    | none => (cache, some ⟨"Not authenticated", .enotauthenticated⟩)
    | some credentials =>
      if credentials.isUserSession && method.noAuthzRequired then (cache, none)
      else if !credentials.authorize now .call methodName then
        if credentials.isUserSession && !credentials.isValid now then
          (cache, some ⟨"Session is expired", .eacces⟩)
        else (cache, some ⟨"Not authorized", .eacces⟩)
      else (cache, none)

def originKey (methodName : String) (origin : Option ConnectionOrigin) : Option String :=
  origin.bind fun origin =>
    if origin.isHaConnection || origin.isUnixFamily then none
    else
      match origin.remAddr, origin.remPort with
      | some address, some _ => some (cacheKey methodName address)
      | _, _ => none

def Limited (app : App) (method : Method) : Prop :=
  app.authenticatedCredentials.isSome = false ∧ method.noAuthRequired = true ∧
    method.rateLimit = true

instance (app : App) (method : Method) : Decidable (Limited app method) :=
  inferInstanceAs (Decidable (_ ∧ _ ∧ _))

def limitedKey (app : App) (methodName : String) (method : Method) : Option String :=
  if Limited app method then originKey methodName app.origin else none

def Elapsed (now : Time) (entry : RateLimitObject) : Prop :=
  config.maxPeriod - (now - entry.lastReset) ≤ 0

instance (now : Time) (entry : RateLimitObject) : Decidable (Elapsed now entry) :=
  inferInstanceAs (Decidable (_ ≤ _))

def RateLimitObject.called (entry : RateLimitObject) (now : Time) : RateLimitObject :=
  if Elapsed now entry then ⟨1, now⟩ else ⟨entry.numTimesCalled + 1, entry.lastReset⟩

def Cache.found (now : Time) (key : String) : RateLimitObject :=
  (cache.lookup key).getD ⟨0, now⟩

def Cache.sizeWith (key : String) : Nat :=
  if key ∈ Dict.keys cache then cache.length else cache.length + 1

section Call

variable {cache added : Cache} {now : Time} {app : App} {methodName key : String} {method : Method}

theorem add_eq (cache : Cache) (now : Time) (methodName : String)
    (origin : Option ConnectionOrigin) :
    (∃ ip, originKey methodName origin = some (cacheKey methodName ip) ∧
      cache.add now methodName origin = (if cacheKey methodName ip ∈ Dict.keys cache then cache
          else Dict.set (cacheKey methodName ip) ⟨0, now⟩ cache, some ip)) ∨
    (originKey methodName origin = none ∧ cache.add now methodName origin = (cache, none)) := by
  cases origin with
  | none => exact .inr ⟨rfl, rfl⟩
  | some origin =>
    by_cases exempt : (origin.isHaConnection || origin.isUnixFamily) = true
    · right
      simp only [originKey, Cache.add, bind_some, if_pos exempt, and_self]
    · simp only [originKey, Cache.add, bind_some, if_neg exempt]
      cases origin.remAddr with
      | none => exact .inr ⟨rfl, rfl⟩
      | some ip =>
        cases origin.remPort with
        | none => exact .inr ⟨rfl, rfl⟩
        | some _ => exact .inl ⟨ip, rfl, rfl⟩

variable {ip : String} {entry : RateLimitObject}

theorem rateLimitExceeded_of_lookup
    (present : cache.lookup (cacheKey methodName ip) = some entry) :
    cache.rateLimitExceeded now methodName ip =
      (Dict.set (cacheKey methodName ip) (entry.called now) cache,
        decide ((entry.called now).numTimesCalled > config.maxCalls)) := by
  by_cases elapsed : Elapsed now entry
  · have test : config.maxPeriod - (now - entry.lastReset) ≤ 0 := elapsed
    simp only [Cache.rateLimitExceeded, present, RateLimitObject.called, if_pos elapsed,
      if_pos test]
  · have test : ¬ config.maxPeriod - (now - entry.lastReset) ≤ 0 := elapsed
    simp only [Cache.rateLimitExceeded, present, RateLimitObject.called, if_neg elapsed,
      if_neg test]

theorem authorizeMethodCall_exempt (limited : Limited app method)
    (exempt : originKey methodName app.origin = none) :
    authorizeMethodCall cache now app methodName method = (cache, none) := by
  obtain ⟨unknown, open_, limit⟩ := limited
  rcases add_eq cache now methodName app.origin with ⟨ip, keyed, -⟩ | ⟨-, added⟩
  · exact absurd (keyed.symm.trans exempt) (some_ne_none _)
  · simp [authorizeMethodCall, unknown, open_, limit, added]

theorem authorizeMethodCall_of_none (cache : Cache) (now : Time)
    (uncounted : limitedKey app methodName method = none) :
    (authorizeMethodCall cache now app methodName method).1 = cache := by
  by_cases limited : Limited app method
  · rw [limitedKey, if_pos limited] at uncounted
    rw [authorizeMethodCall_exempt limited uncounted]
  · by_cases open_ : method.noAuthRequired = true
    · have passed : app.authenticatedCredentials.isSome = true ∨ method.rateLimit = false := by
        by_contra neither
        simp only [not_or, Bool.not_eq_true, Bool.not_eq_false] at neither
        exact limited ⟨neither.1, open_, neither.2⟩
      rcases passed with known | free
      · simp [authorizeMethodCall, open_, known]
      · simp [authorizeMethodCall, open_, free]
    · simp only [authorizeMethodCall, if_neg open_]
      cases app.authenticatedCredentials with
      | none => rfl
      | some credentials =>
        dsimp only
        split_ifs <;> rfl

theorem authorizeMethodCall_limited (limited : Limited app method)
    (add : cache.add now methodName app.origin = (added, some ip))
    (present : added.lookup (cacheKey methodName ip) = some entry) :
    authorizeMethodCall cache now app methodName method =
      (Dict.set (cacheKey methodName ip) (entry.called now) added,
        if added.length = config.maxCacheEntries ∨
          (entry.called now).numTimesCalled > config.maxCalls
        then some rateLimitExceededError else none) := by
  obtain ⟨unknown, open_, limit⟩ := limited
  simp [authorizeMethodCall, unknown, open_, limit, add, Cache.maxEntriesReached,
    rateLimitExceeded_of_lookup present]

theorem authorizeMethodCall_of_key (cache : Cache) (now : Time)
    (counted : limitedKey app methodName method = some key) :
    (∀ other, (authorizeMethodCall cache now app methodName method).1.lookup other =
      if other = key then some ((cache.found now key).called now) else cache.lookup other) ∧
    (authorizeMethodCall cache now app methodName method).1.length = cache.sizeWith key ∧
    (authorizeMethodCall cache now app methodName method).2 =
      if cache.sizeWith key = config.maxCacheEntries ∨
        ((cache.found now key).called now).numTimesCalled > config.maxCalls
      then some rateLimitExceededError else none := by
  by_cases limited : Limited app method
  · rw [limitedKey, if_pos limited] at counted
    rcases add_eq cache now methodName app.origin with ⟨ip, keyed, added⟩ | ⟨none_, -⟩
    · cases keyed.symm.trans counted
      by_cases mem : cacheKey methodName ip ∈ keys cache
      · obtain ⟨entry, present⟩ := exists_lookup.2 mem
        rw [if_pos mem] at added
        rw [authorizeMethodCall_limited limited added present]
        simp [Cache.found, Cache.sizeWith, present, mem, lookup_set, length_set_of_mem]
      · have absent := lookup_eq_none.2 mem
        rw [if_neg mem] at added
        have present : (set (cacheKey methodName ip) ⟨0, now⟩ cache).lookup
            (cacheKey methodName ip) = some ⟨0, now⟩ := by
          rw [lookup_set, if_pos rfl]
        have inserted : cacheKey methodName ip ∈
            keys (set (cacheKey methodName ip) ⟨0, now⟩ cache) :=
          (mem_keys_set _).2 (.inl rfl)
        rw [authorizeMethodCall_limited limited added present]
        refine ⟨fun other => ?_, ?_, ?_⟩
        · by_cases eq : other = cacheKey methodName ip
          · simp [Cache.found, absent, eq, lookup_set]
          · simp [eq, lookup_set]
        · rw [length_set_of_mem _ inserted, length_set_of_not_mem _ mem,
            Cache.sizeWith, if_neg mem]
        · rw [length_set_of_not_mem _ mem, Cache.sizeWith, if_neg mem, Cache.found,
            absent, getD_none]
    · exact absurd (none_.symm.trans counted) (some_ne_none _).symm
  · rw [limitedKey, if_neg limited] at counted
    cases counted

end Call

structure State where
  cache : Cache := []
  now : Time := 0
  /-- The keys of the accepted calls, each since the last reset of its key. -/
  accepted : List String := []

inductive Label
  | advance (duration : Time)
  | call (app : App) (methodName : String) (method : Method)
  | cachePop (methodName ip : String)
  | cacheClear

variable (state : State)

def State.current (key : String) : List String :=
  if Elapsed state.now (state.cache.found state.now key) then state.accepted.filter (· ≠ key)
  else state.accepted

def State.acceptedAfter (error : Option CallError) : Option String → List String
  | none => state.accepted
  | some key => if error.isNone then key :: state.current key else state.current key

def step : Label → Option State
  | .advance duration =>
    if 0 ≤ duration then some { state with now := state.now + duration } else none
  | .call app methodName method =>
    let result := authorizeMethodCall state.cache state.now app methodName method
    some { state with
      cache := result.1
      accepted := state.acceptedAfter result.2 (limitedKey app methodName method) }
  | .cachePop methodName ip =>
    some { state with
      cache := state.cache.cachePop methodName ip
      accepted := state.accepted.filter (· ≠ cacheKey methodName ip) }
  | .cacheClear => some { state with cache := state.cache.cacheClear, accepted := [] }

/-- A limited call that comes when the cache is full is counted under a cached key. -/
def Admissible : Label → Prop
  | .call app methodName method =>
    Limited app method → state.cache.length = config.maxCacheEntries →
      (originKey methodName app.origin).any (fun key => decide (key ∈ Dict.keys state.cache)) = true
  | _ => True

/-- Accepted calls are counted by the entry of their key, up to the limit. -/
def Counted : Prop :=
  ∀ key, state.accepted.count key ≤ config.maxCalls ∧
    state.accepted.count key ≤ ((state.cache.lookup key).elim 0 RateLimitObject.numTimesCalled)

theorem count_filter_ne (keys : List String) (key other : String) :
    (keys.filter (· ≠ key)).count other = if other = key then 0 else keys.count other := by
  by_cases eq : other = key
  · rw [if_pos eq, eq]
    exact count_eq_zero.2 fun mem => by simp at mem
  · rw [if_neg eq]
    exact count_filter (by simpa using eq)

section Steps

variable {state next : State} {app : App} {methodName key ip : String} {method : Method}

theorem count_current (state : State) (key other : String) : (state.current key).count other =
      if other = key ∧ Elapsed state.now (state.cache.found state.now key) then 0
      else state.accepted.count other := by
  by_cases elapsed : Elapsed state.now (state.cache.found state.now key)
  · simp only [State.current, elapsed, if_true, count_filter_ne, and_true]
  · simp only [State.current, elapsed, if_false, and_false]

variable (counted : Counted state)
include counted

theorem Counted.found (key : String) :
    state.accepted.count key ≤ (state.cache.found state.now key).numTimesCalled := by
  have bound := (counted key).2
  rw [Cache.found]
  cases present : state.cache.lookup key with
  | none => simpa only [present, elim_none, getD_none] using bound
  | some entry => simpa only [present, elim_some, getD_some] using bound

theorem Counted.called (key : String) :
    (state.current key).count key + 1 ≤
      ((state.cache.found state.now key).called state.now).numTimesCalled := by
  rw [count_current, RateLimitObject.called]
  by_cases elapsed : Elapsed state.now (state.cache.found state.now key)
  · rw [if_pos ⟨rfl, elapsed⟩, if_pos elapsed]
  · rw [if_neg fun both => elapsed both.2, if_neg elapsed]
    exact Nat.succ_le_succ (counted.found key)

omit counted in
theorem count_current_le (state : State) (key other : String) :
    (state.current key).count other ≤ state.accepted.count other := by
  rw [count_current]
  split_ifs
  · exact Nat.zero_le _
  · exact le_rfl

theorem Counted.call
    (taken : step state (.call app methodName method) = some next) : Counted next := by
  cases taken
  cases named : limitedKey app methodName method with
  | none =>
    have eq := authorizeMethodCall_of_none state.cache state.now named
    simpa only [Counted, State.acceptedAfter, eq] using counted
  | some key =>
    obtain ⟨lookups, -, answer⟩ := authorizeMethodCall_of_key state.cache state.now named
    have within := counted.called key
    intro other
    simp only [lookups, State.acceptedAfter]
    by_cases eq : other = key
    · subst eq
      rw [if_pos rfl, elim_some]
      by_cases limit : ((state.cache.found state.now other).called state.now).numTimesCalled >
          config.maxCalls
      · rw [if_neg (by simp [answer, limit])]
        exact ⟨(count_current_le state other other).trans (counted other).1, by omega⟩
      · split_ifs
        · rw [count_cons_self]
          omega
        · omega
    · have kept : ∀ error : Option CallError,
          (if error.isNone then key :: state.current key else state.current key).count other ≤
            state.accepted.count other := by
        intro error
        split_ifs
        · rw [count_cons_of_ne (Ne.symm eq)]
          exact count_current_le state key other
        · exact count_current_le state key other
      rw [if_neg eq]
      exact ⟨(kept _).trans (counted other).1, (kept _).trans (counted other).2⟩

theorem Counted.cachePop
    (taken : step state (.cachePop methodName ip) = some next) : Counted next := by
  cases taken
  intro other
  simp only [Cache.cachePop, lookup_pop, count_filter_ne]
  by_cases eq : other = cacheKey methodName ip
  · rw [if_pos eq]
    exact ⟨Nat.zero_le _, Nat.zero_le _⟩
  · rw [if_neg eq, if_neg eq]
    exact counted other

theorem Counted.step {label : Label}
    (taken : RateLimit.step state label = some next) : Counted next := by
  cases label with
  | advance duration =>
    simp only [RateLimit.step, ite_none_right_eq_some, Option.some.injEq] at taken
    obtain ⟨-, rfl⟩ := taken
    exact counted
  | call app methodName method => exact counted.call taken
  | cachePop methodName ip => exact counted.cachePop taken
  | cacheClear =>
    cases taken
    intro key
    exact ⟨Nat.zero_le _, Nat.zero_le _⟩

omit counted

theorem full_iff_admissible (full : state.cache.length = config.maxCacheEntries)
    (limited : Limited app method) :
    ((authorizeMethodCall state.cache state.now app methodName method).2 =
        some rateLimitExceededError ∧
      (authorizeMethodCall state.cache state.now app methodName method).1.length ≤
        config.maxCacheEntries) ↔
      Admissible state (.call app methodName method) := by
  simp only [Admissible, limited, full, forall_const]
  cases named : originKey methodName app.origin with
  | none => simp [authorizeMethodCall_exempt limited named]
  | some key =>
    have keyed : limitedKey app methodName method = some key := by
      rw [limitedKey, if_pos limited, named]
    obtain ⟨-, size, answer⟩ := authorizeMethodCall_of_key state.cache state.now keyed
    rw [size, answer, any_some, decide_eq_true_iff]
    by_cases mem : key ∈ keys state.cache
    all_goals simp [Cache.sizeWith, mem, full]

theorem length_call (bounded : state.cache.length ≤ config.maxCacheEntries)
    (admissible : Admissible state (.call app methodName method)) :
    (authorizeMethodCall state.cache state.now app methodName method).1.length ≤
      config.maxCacheEntries := by
  rcases bounded.lt_or_eq with room | full
  · cases named : limitedKey app methodName method with
    | none => rwa [authorizeMethodCall_of_none _ _ named]
    | some key =>
      obtain ⟨-, size, -⟩ := authorizeMethodCall_of_key state.cache state.now named
      rw [size, Cache.sizeWith]
      split_ifs
      · exact bounded
      · exact room
  · by_cases limited : Limited app method
    · exact ((full_iff_admissible full limited).2 admissible).2
    · have uncounted : limitedKey app methodName method = none := by
        rw [limitedKey, if_neg limited]
      rwa [authorizeMethodCall_of_none _ _ uncounted]

theorem length_step {label : Label} (bounded : state.cache.length ≤ config.maxCacheEntries)
    (admissible : Admissible state label) (taken : RateLimit.step state label = some next) :
    next.cache.length ≤ config.maxCacheEntries := by
  cases label with
  | advance duration =>
    simp only [RateLimit.step, ite_none_right_eq_some, Option.some.injEq] at taken
    obtain ⟨-, rfl⟩ := taken
    exact bounded
  | call app methodName method =>
    cases taken
    exact length_call bounded admissible
  | cachePop methodName ip =>
    cases taken
    exact (length_filter_le _ _).trans bounded
  | cacheClear =>
    cases taken
    exact Nat.zero_le _

end Steps

/-- In every run a key has at most `maxCalls` accepted calls since its last reset. In every
run of admissible steps the cache stays within its maximum and, when it is full, a limited call
is rejected. At a full cache a limited call is rejected without a new entry only if it is
admissible. -/
theorem rate_limit_bounded (state : State) : (Reach step Always {} state → ∀ methodName ip,
      state.accepted.count (cacheKey methodName ip) ≤ config.maxCalls) ∧
    (Reach step Admissible {} state → state.cache.length ≤ config.maxCacheEntries ∧
      ∀ app methodName method, Limited app method → Admissible state (.call app methodName method) →
        state.cache.length = config.maxCacheEntries →
        (authorizeMethodCall state.cache state.now app methodName method).2 =
          some rateLimitExceededError) ∧
    (Reach step Always {} state → state.cache.length = config.maxCacheEntries →
      ∀ app methodName method, Limited app method →
        (((authorizeMethodCall state.cache state.now app methodName method).2 =
            some rateLimitExceededError ∧
          (authorizeMethodCall state.cache state.now app methodName method).1.length ≤
            config.maxCacheEntries) ↔
          Admissible state (.call app methodName method))) := by
  refine ⟨fun reach methodName ip => ?_, fun reach => ⟨?_, ?_⟩, ?_⟩
  · have counted : Counted state := reach.invariant
      (fun _ => ⟨Nat.zero_le _, Nat.zero_le _⟩) fun _ _ _ counted _ stepped => counted.step stepped
    exact (counted _).1
  · exact reach.invariant (P := fun state => state.cache.length ≤ config.maxCacheEntries)
      (Nat.zero_le _) fun _ _ _ bounded admissible stepped =>
        length_step bounded admissible stepped
  · intro app methodName method limited admissible full
    exact ((full_iff_admissible full limited).2 admissible).1
  · intro _ full app methodName method limited
    exact full_iff_admissible full limited

section Example

def address (host : Nat) : String := "10.0.0." ++ host.repr

def appAt (host : Nat) : App where
  origin := some { family := .inet, remAddr := some (address host), remPort := some 50000 }

def bootId : Method := { noAuthRequired := true }

def hostKey (host : Nat) : String := cacheKey "system.boot_id" (address host)

theorem limited_appAt (host : Nat) : Limited (appAt host) bootId := ⟨rfl, rfl, rfl⟩

theorem originKey_appAt (host : Nat) :
    originKey "system.boot_id" (appAt host).origin = some (hostKey host) := by
  simp [originKey, appAt, hostKey, ConnectionOrigin.isHaConnection, ConnectionOrigin.isUnixFamily]

theorem limitedKey_appAt (host : Nat) :
    limitedKey (appAt host) "system.boot_id" bootId = some (hostKey host) := by
  rw [limitedKey, if_pos (limited_appAt host), originKey_appAt]

theorem hostKey_injective {host other : Nat} (eq : hostKey host = hostKey other) :
    host = other := by
  have texts := congrArg String.toList eq
  simp only [hostKey, cacheKey, address, String.toList_append, append_cancel_left_eq,
    Nat.toList_repr] at texts
  have parsed := congrArg (fun digits => Nat.ofDigitChars 10 digits 0) texts
  simpa [Nat.ofDigitChars_toDigits] using parsed

theorem reach_hosts (count : Nat) (small : count ≤ config.maxCacheEntries) :
    ∃ state, Reach step Admissible {} state ∧ state.cache.length = count ∧
      ∀ host, hostKey host ∈ Dict.keys state.cache ↔ host < count := by
  induction count with
  | zero => exact ⟨{}, .start, rfl, fun host => by simp [Dict.keys]⟩
  | succ count ih =>
    obtain ⟨state, reach, length, hosts⟩ := ih (Nat.le_of_succ_le small)
    obtain ⟨lookups, size, -⟩ :=
      authorizeMethodCall_of_key state.cache state.now (limitedKey_appAt count)
    have absent : hostKey count ∉ keys state.cache := fun mem =>
      absurd ((hosts count).1 mem) (Nat.lt_irrefl count)
    have admissible : Admissible state (.call (appAt count) "system.boot_id" bootId) :=
      fun _ full => absurd (length.symm.trans full) (Nat.ne_of_lt small)
    refine ⟨_, .next reach admissible rfl, ?_, fun host => ?_⟩
    · rw [size, Cache.sizeWith, if_neg absent, length]
    · rw [← lookup_isSome, lookups]
      by_cases eq : host = count
      · simp [eq]
      · have other : hostKey host ≠ hostKey count := fun keys => eq (hostKey_injective keys)
        rw [if_neg other, lookup_isSome, hosts]
        omega

/-- The host that comes when the cache is full is accepted and gets an entry. -/
theorem full_cache_accepts_new_key :
    ∃ state, Reach step Always {} state ∧ state.cache.length = config.maxCacheEntries ∧
      ∃ app methodName method, Limited app method ∧
        (authorizeMethodCall state.cache state.now app methodName method).2 = none ∧
        (authorizeMethodCall state.cache state.now app methodName method).1.length =
          config.maxCacheEntries + 1 := by
  obtain ⟨state, reach, full, hosts⟩ := reach_hosts config.maxCacheEntries le_rfl
  have absent : hostKey config.maxCacheEntries ∉ keys state.cache := fun inside =>
    absurd ((hosts _).1 inside) (Nat.lt_irrefl _)
  have fresh : state.cache.lookup (hostKey config.maxCacheEntries) = none :=
    lookup_eq_none.2 absent
  have first : ((state.cache.found state.now (hostKey config.maxCacheEntries)).called
      state.now).numTimesCalled = 1 := by
    rw [Cache.found, fresh, getD_none, RateLimitObject.called]
    split_ifs <;> rfl
  obtain ⟨-, size, answer⟩ := authorizeMethodCall_of_key state.cache state.now
    (limitedKey_appAt config.maxCacheEntries)
  rw [Cache.sizeWith, if_neg absent, full] at size answer
  rw [first] at answer
  refine ⟨state, reach.always, full, appAt config.maxCacheEntries, "system.boot_id", bootId,
    limited_appAt _, ?_, size⟩
  rw [answer, if_neg (by decide)]

theorem rate_limit_bounded_full :
    ∃ state, Reach step Admissible {} state ∧ state.cache.length = config.maxCacheEntries ∧
      (authorizeMethodCall state.cache state.now (appAt 0) "system.boot_id" bootId).2 =
        some rateLimitExceededError := by
  obtain ⟨state, reach, full, hosts⟩ := reach_hosts config.maxCacheEntries le_rfl
  have admissible : Admissible state (.call (appAt 0) "system.boot_id" bootId) := by
    intro _ _
    rw [originKey_appAt, any_some, decide_eq_true_iff, hosts]
    decide
  exact ⟨state, reach, full, ((rate_limit_bounded state).2.1 reach).2 (appAt 0) "system.boot_id"
    bootId (limited_appAt 0) admissible full⟩

end Example

end TruenasMiddleware.RateLimit
