import TruenasMiddleware.Auth.Credentials
import TruenasMiddleware.Foundation.Dict

/-! `OnetimePasswordManager` of `utils/auth.py`. A text is a list of characters; the hash is
any one that verifies exactly the text it was made from. -/

namespace TruenasMiddleware.Auth.OneTime

open Transition List Dict

abbrev Text := List Char

inductive OTPWResponseCode
  | success
  | expired
  | noKey
  | alreadyUsed
  | wrongUser
  | badPasskey
deriving DecidableEq

structure UserOnetimePassword (Hash : Type) where
  uid : Int
  expires : Time
  keyhash : Hash
  used : Bool := false
  passwordSetOverride : Bool := false

structure OTPWResponse (Hash : Type) where
  code : OTPWResponseCode
  data : Option (UserOnetimePassword Hash) := none

structure RandomString where
  text : Text
  length_eq : text.length = 24
  alphanumeric : ∀ char ∈ text, char.isAlphanum = true

structure OnetimePasswordManager (Hash : Type) where
  otpasswd : List (Text × UserOnetimePassword Hash) := []
  cnt : Nat := 0

def index (cnt : Nat) : Text := Nat.toDigits 10 cnt

def humanFriendly (p : Text) : Text :=
  ['-'].intercalate [p.take 6, (p.drop 6).take 6, (p.drop 12).take 6, (p.drop 18).take 6]

def passkey (cnt : Nat) (word : Text) : Text := ['_'].intercalate [index cnt, word]

namespace OnetimePasswordManager

variable {Hash : Type} (sha512Crypt : Nat → Text → Hash) (checkUnixhash : Text → Hash → Bool)

def generateForUid (manager : OnetimePasswordManager Hash) (now : Time) (uid : Int)
    (adminGenerated : Bool) (p : RandomString) (salt : Nat) :
    OnetimePasswordManager Hash × Text :=
  let word := humanFriendly p.text
  let entry : UserOnetimePassword Hash :=
    { uid := uid
      expires := now + 86400
      keyhash := sha512Crypt salt word
      passwordSetOverride := adminGenerated }
  let cnt := manager.cnt + 1
  ({ otpasswd := Dict.set (index cnt) entry manager.otpasswd, cnt := cnt }, passkey cnt word)

def authenticate (manager : OnetimePasswordManager Hash) (now : Time) (uid : Int)
    (plaintext : Text) : OnetimePasswordManager Hash × OTPWResponse Hash :=
  match splitOn '_' plaintext with
  | [idx, passwd] =>
    match manager.otpasswd.lookup idx with
    | none => (manager, ⟨.noKey, none⟩)
    | some entry =>
      if entry.uid ≠ uid then (manager, ⟨.wrongUser, none⟩)
      else if entry.used then (manager, ⟨.alreadyUsed, none⟩)
      else if now > entry.expires then (manager, ⟨.expired, none⟩)
      else if checkUnixhash passwd entry.keyhash then
        let entry := { entry with used := true }
        ({ manager with otpasswd := Dict.set idx entry manager.otpasswd }, ⟨.success, some entry⟩)
      else (manager, ⟨.badPasskey, none⟩)
  | _ => (manager, ⟨.noKey, none⟩)

end OnetimePasswordManager

structure Issue (Hash : Type) where
  number : Nat
  word : Text
  uid : Int
  expires : Time
  keyhash : Hash
  passwordSetOverride : Bool

def Issue.text {Hash : Type} (issue : Issue Hash) : Text := passkey issue.number issue.word

structure Use where
  uid : Int
  text : Text
  time : Time

structure State (Hash : Type) where
  manager : OnetimePasswordManager Hash := {}
  now : Time := 0
  issues : List (Issue Hash) := []
  uses : List Use := []

inductive Label
  | advance (duration : Time)
  | generate (uid : Int) (adminGenerated : Bool) (p : RandomString) (salt : Nat)
  | authenticate (uid : Int) (plaintext : Text)

section Runs

variable {Hash : Type} (sha512Crypt : Nat → Text → Hash) (checkUnixhash : Text → Hash → Bool)

def step (state : State Hash) : Label → Option (State Hash)
  | .advance duration =>
    if 0 ≤ duration then some { state with now := state.now + duration } else none
  | .generate uid adminGenerated p salt =>
    some { state with
      manager := (state.manager.generateForUid sha512Crypt state.now uid adminGenerated p salt).1
      issues :=
        { number := state.manager.cnt + 1
          word := humanFriendly p.text
          uid := uid
          expires := state.now + 86400
          keyhash := sha512Crypt salt (humanFriendly p.text)
          passwordSetOverride := adminGenerated } :: state.issues }
  | .authenticate uid plaintext =>
    let result := state.manager.authenticate checkUnixhash state.now uid plaintext
    some { state with
      manager := result.1
      uses := if result.2.code = .success then ⟨uid, plaintext, state.now⟩ :: state.uses
        else state.uses }

end Runs

section Texts

theorem index_injective {m n : Nat} (eq : index m = index n) : m = n := by
  have parsed := congrArg (fun digits => Nat.ofDigitChars 10 digits 0) eq
  simpa [index, Nat.ofDigitChars_toDigits] using parsed

theorem underscore_not_mem_index (cnt : Nat) : '_' ∉ index cnt := by
  intro mem
  have digit := Nat.isDigit_of_mem_toDigits (by decide) (by decide) mem
  exact absurd digit (by decide)

theorem underscore_not_mem_humanFriendly (p : RandomString) : '_' ∉ humanFriendly p.text := by
  have clean : '_' ∉ p.text := fun mem => absurd (p.alphanumeric '_' mem) (by decide)
  have slice (from_ : Nat) : '_' ∉ (p.text.drop from_).take 6 :=
    fun mem => clean (mem_of_mem_drop (mem_of_mem_take mem))
  have first : '_' ∉ p.text.take 6 := fun mem => clean (mem_of_mem_take mem)
  simp [humanFriendly, intercalate, intersperse, first, slice]

theorem splitOn_passkey {cnt : Nat} {word : Text} (clean : '_' ∉ word) :
    splitOn '_' (passkey cnt word) = [index cnt, word] := by
  refine splitOn_intercalate '_' ?_ (cons_ne_nil _ _)
  simp [underscore_not_mem_index, clean]

theorem eq_intercalate_of_splitOn {plaintext idx passwd : Text}
    (parts : splitOn '_' plaintext = [idx, passwd]) :
    plaintext = ['_'].intercalate [idx, passwd] := by
  rw [← parts, intercalate_splitOn]

end Texts

section Invariant

variable {Hash : Type} {sha512Crypt : Nat → Text → Hash} {checkUnixhash : Text → Hash → Bool}

def Issue.entry (issue : Issue Hash) (uses : List Use) : UserOnetimePassword Hash :=
  { uid := issue.uid
    expires := issue.expires
    keyhash := issue.keyhash
    used := decide (issue.text ∈ uses.map Use.text)
    passwordSetOverride := issue.passwordSetOverride }

/-- The word has one part only, and the stored hash verifies it alone. -/
structure Issue.Hashed (checkUnixhash : Text → Hash → Bool) (issue : Issue Hash) : Prop where
  clean : '_' ∉ issue.word
  exact : ∀ passwd, checkUnixhash passwd issue.keyhash = true ↔ passwd = issue.word

/-- A success is one of an issued password, by its user and not after its expiry. -/
def Use.Of (use : Use) (issue : Issue Hash) : Prop :=
  use.text = issue.text ∧ use.uid = issue.uid ∧ use.time ≤ issue.expires

/-- The store is the list of issues, each marked as used exactly when it was. -/
structure Sound (checkUnixhash : Text → Hash → Bool) (state : State Hash) : Prop where
  hashed : ∀ issue ∈ state.issues, issue.Hashed checkUnixhash
  numbered : ∀ issue ∈ state.issues, issue.number ≤ state.manager.cnt
  distinct : ∀ issue ∈ state.issues, ∀ other ∈ state.issues,
    issue.number = other.number → issue = other
  stored : ∀ issue ∈ state.issues,
    state.manager.otpasswd.lookup (index issue.number) = some (issue.entry state.uses)
  issued : ∀ idx entry, state.manager.otpasswd.lookup idx = some entry →
    ∃ issue ∈ state.issues, idx = index issue.number
  used : ∀ use ∈ state.uses, ∃ issue ∈ state.issues, use.Of issue
  once : (state.uses.map Use.text).Nodup

variable {state : State Hash} {plaintext word : Text} {uid : Int} {issue : Issue Hash}

theorem Issue.splitOn_text (hashed : issue.Hashed checkUnixhash) :
    splitOn '_' issue.text = [index issue.number, issue.word] :=
  splitOn_passkey hashed.clean

variable {other : Issue Hash} {manager : OnetimePasswordManager Hash} {now time : Time}
  (sound : Sound checkUnixhash state)
include sound

theorem Sound.eq_of_text (mem : issue ∈ state.issues) (otherInside : other ∈ state.issues)
    (eq : issue.text = other.text) : issue = other := by
  have parts := congrArg (splitOn '_') eq
  rw [Issue.splitOn_text (sound.hashed _ mem),
    Issue.splitOn_text (sound.hashed _ otherInside)] at parts
  exact sound.distinct _ mem _ otherInside (index_injective (cons.inj parts).1)

theorem authenticate_text (mem : issue ∈ state.issues) (now : Time) (uid : Int) :
    (state.manager.authenticate checkUnixhash now uid issue.text).2.code = .success ↔
      issue.uid = uid ∧ issue.text ∉ state.uses.map Use.text ∧ now ≤ issue.expires := by
  have verified := ((sound.hashed _ mem).exact issue.word).2 rfl
  simp only [OnetimePasswordManager.authenticate, Issue.splitOn_text (sound.hashed _ mem),
    sound.stored _ mem]
  by_cases owner : issue.uid = uid
  · by_cases spent : issue.text ∈ state.uses.map Use.text
    · simp [Issue.entry, owner, spent]
    · by_cases late : issue.expires < now
      · simp [Issue.entry, owner, spent, late, not_le.2 late]
      · simp [Issue.entry, owner, spent, late, verified, not_lt.1 late]
  · simp [Issue.entry, owner]

omit sound in
theorem authenticate_found
    (success : (manager.authenticate checkUnixhash now uid plaintext).2.code = .success) :
    ∃ idx passwd entry, splitOn '_' plaintext = [idx, passwd] ∧
      manager.otpasswd.lookup idx = some entry ∧
      checkUnixhash passwd entry.keyhash = true ∧
      (manager.authenticate checkUnixhash now uid plaintext).1 = { manager with
          otpasswd := Dict.set idx { entry with used := true } manager.otpasswd } := by
  unfold OnetimePasswordManager.authenticate at success ⊢
  split at success
  · rename_i idx passwd parts
    cases found : manager.otpasswd.lookup idx with
    | none => simp [found] at success
    | some entry =>
      simp only [found] at success
      split_ifs at success with stranger spent late verified
      exact ⟨idx, passwd, entry, parts, found, verified, by
        simp [stranger, spent, late, verified]⟩
  · cases success

theorem authenticate_success
    (success : (state.manager.authenticate checkUnixhash state.now uid plaintext).2.code =
      .success) :
    ∃ issue ∈ state.issues, plaintext = issue.text ∧
      (state.manager.authenticate checkUnixhash state.now uid plaintext).1 = { state.manager with
          otpasswd := Dict.set (index issue.number)
            { issue.entry state.uses with used := true } state.manager.otpasswd } := by
  obtain ⟨idx, passwd, entry, parts, found, verified, written⟩ := authenticate_found success
  obtain ⟨issue, mem, rfl⟩ := sound.issued idx entry found
  obtain rfl : issue.entry state.uses = entry :=
    Option.some.inj ((sound.stored issue mem).symm.trans found)
  obtain rfl : passwd = issue.word := ((sound.hashed issue mem).exact passwd).1 verified
  exact ⟨issue, mem, eq_intercalate_of_splitOn parts, written⟩

omit sound in
theorem authenticate_failure
    (failure : (manager.authenticate checkUnixhash now uid plaintext).2.code ≠ .success) :
    (manager.authenticate checkUnixhash now uid plaintext).1 = manager := by
  unfold OnetimePasswordManager.authenticate at failure ⊢
  split
  · split
    · rfl
    · split_ifs <;> simp_all
  · rfl

omit sound in
theorem Sound.init : Sound checkUnixhash ({} : State Hash) := by
  constructor <;> simp

variable {next : State Hash}

theorem Sound.congr (manager : next.manager = state.manager)
    (issues : next.issues = state.issues) (uses : next.uses = state.uses) :
    Sound checkUnixhash next := by
  obtain ⟨hashed, numbered, distinct, stored, issued, used, once⟩ := sound
  constructor
  all_goals simpa only [manager, issues, uses]

theorem Sound.entry_cons (mem : issue ∈ state.issues) (otherInside : other ∈ state.issues) :
    other.entry (⟨uid, issue.text, time⟩ :: state.uses) =
      if other.number = issue.number then { issue.entry state.uses with used := true }
      else other.entry state.uses := by
  by_cases eq : other.number = issue.number
  · obtain rfl := sound.distinct other otherInside issue mem eq
    simp [Issue.entry]
  · have differ : other.text ≠ issue.text :=
      fun text => eq (congrArg Issue.number (sound.eq_of_text otherInside mem text))
    simp [Issue.entry, eq, differ]

theorem Sound.authenticate
    (taken : step sha512Crypt checkUnixhash state (.authenticate uid plaintext) = some next) :
    Sound checkUnixhash next := by
  cases taken
  by_cases success :
      (state.manager.authenticate checkUnixhash state.now uid plaintext).2.code = .success
  · obtain ⟨issue, mem, rfl, written⟩ := authenticate_success sound success
    obtain ⟨owner, unused, inTime⟩ := (authenticate_text sound mem state.now uid).1 success
    simp only [success, if_true, written]
    refine ⟨sound.hashed, sound.numbered, sound.distinct, ?stored, ?issued, ?used, ?once⟩
    case stored =>
      intro other otherInside
      rw [lookup_set, sound.entry_cons mem otherInside]
      by_cases eq : other.number = issue.number
      · rw [if_pos (congrArg index eq), if_pos eq]
      · rw [if_neg fun digits => eq (index_injective digits), if_neg eq]
        exact sound.stored other otherInside
    case issued =>
      intro idx entry found
      by_cases here : idx = index issue.number
      · exact ⟨issue, mem, here⟩
      · rw [lookup_set, if_neg here] at found
        exact sound.issued idx entry found
    case used => exact forall_mem_cons.2 ⟨⟨issue, mem, rfl, owner.symm, inTime⟩, sound.used⟩
    case once => exact nodup_cons.2 ⟨unused, sound.once⟩
  · simp only [success, if_false, authenticate_failure success]
    exact sound.congr rfl rfl rfl

variable (exact : ∀ salt word passwd, checkUnixhash passwd (sha512Crypt salt word) = true ↔
  passwd = word)
include exact

theorem Sound.generate {adminGenerated : Bool} {p : RandomString} {salt : Nat}
    (taken : step sha512Crypt checkUnixhash state (.generate uid adminGenerated p salt) =
      some next) : Sound checkUnixhash next := by
  cases taken
  have fresh : ∀ issue ∈ state.issues, issue.number ≠ state.manager.cnt + 1 :=
    fun issue mem eq => absurd (sound.numbered issue mem) (by omega)
  -- The new text was not used before: a used text belongs to an earlier number.
  have unused : passkey (state.manager.cnt + 1) (humanFriendly p.text) ∉
      state.uses.map Use.text := by
    intro spent
    obtain ⟨use, useInside, eq⟩ := mem_map.1 spent
    obtain ⟨issue, mem, text, -, -⟩ := sound.used use useInside
    have parts := congrArg (splitOn '_') (text.symm.trans eq)
    rw [Issue.splitOn_text (sound.hashed issue mem),
      splitOn_passkey (underscore_not_mem_humanFriendly p)] at parts
    exact fresh issue mem (index_injective (cons.inj parts).1)
  refine ⟨?hashed, ?numbered, ?distinct, ?stored, ?issued, ?used, sound.once⟩
  case hashed =>
    exact forall_mem_cons.2 ⟨⟨underscore_not_mem_humanFriendly p, exact salt _⟩, sound.hashed⟩
  case numbered =>
    refine forall_mem_cons.2 ⟨le_rfl, fun issue mem => ?_⟩
    exact (sound.numbered issue mem).trans (Nat.le_succ _)
  case distinct =>
    rintro issue (_ | ⟨_, mem⟩) other (_ | ⟨_, otherInside⟩) eq
    · rfl
    · exact absurd eq.symm (fresh other otherInside)
    · exact absurd eq (fresh issue mem)
    · exact sound.distinct issue mem other otherInside eq
  case stored =>
    rintro issue (_ | ⟨_, mem⟩)
    · simp [OnetimePasswordManager.generateForUid, lookup_set, Issue.entry, Issue.text, unused]
    · have other : index issue.number ≠ index (state.manager.cnt + 1) :=
        fun eq => fresh issue mem (index_injective eq)
      simpa [OnetimePasswordManager.generateForUid, lookup_set, other] using
        sound.stored issue mem
  case issued =>
    intro idx entry found
    by_cases new : idx = index (state.manager.cnt + 1)
    · exact ⟨_, mem_cons_self, new⟩
    · simp only [OnetimePasswordManager.generateForUid, lookup_set, new, if_false] at found
      obtain ⟨issue, mem, eq⟩ := sound.issued idx entry found
      exact ⟨issue, mem_cons_of_mem _ mem, eq⟩
  case used =>
    intro use useInside
    obtain ⟨issue, mem, of⟩ := sound.used use useInside
    exact ⟨issue, mem_cons_of_mem _ mem, of⟩

theorem Sound.step {label : Label}
    (taken : OneTime.step sha512Crypt checkUnixhash state label = some next) :
    Sound checkUnixhash next := by
  cases label with
  | advance duration =>
    simp only [OneTime.step, Option.ite_none_right_eq_some, Option.some.injEq] at taken
    obtain ⟨-, rfl⟩ := taken
    exact sound.congr rfl rfl rfl
  | generate uid adminGenerated p salt => exact sound.generate exact taken
  | authenticate uid plaintext => exact sound.authenticate taken

omit sound in
theorem sound_of_reach (reach : Reach (OneTime.step sha512Crypt checkUnixhash) Always {} state) :
    Sound checkUnixhash state :=
  reach.invariant Sound.init fun _ _ _ sound _ taken => sound.step exact taken

omit exact

omit sound in
theorem authenticate_congr {other : OnetimePasswordManager Hash} {cnt : Nat} (clean : '_' ∉ word)
    (eq : manager.otpasswd.lookup (index cnt) = other.otpasswd.lookup (index cnt))
    (now : Time) (uid : Int) :
    (manager.authenticate checkUnixhash now uid (passkey cnt word)).2 =
      (other.authenticate checkUnixhash now uid (passkey cnt word)).2 := by
  simp only [OnetimePasswordManager.authenticate, splitOn_passkey clean, eq]
  cases other.otpasswd.lookup (index cnt) with
  | none => rfl
  | some entry =>
    dsimp only
    split_ifs <;> rfl

theorem authenticate_other (mem : issue ∈ state.issues)
    (other : plaintext ≠ issue.text) (now : Time) (caller : Int) :
    ((state.manager.authenticate checkUnixhash state.now uid plaintext).1.authenticate
        checkUnixhash now caller issue.text).2 =
      (state.manager.authenticate checkUnixhash now caller issue.text).2 := by
  refine authenticate_congr (sound.hashed issue mem).clean ?_ now caller
  by_cases success :
      (state.manager.authenticate checkUnixhash state.now uid plaintext).2.code = .success
  · obtain ⟨found, foundInside, rfl, written⟩ := authenticate_success sound success
    have differ : index issue.number ≠ index found.number := fun digits =>
      other (congrArg Issue.text
        (sound.distinct found foundInside issue mem (index_injective digits.symm)))
    rw [written, lookup_set, if_neg differ]
  · rw [authenticate_failure success]

end Invariant

/-- In every run no password succeeds twice, every success is one of an issued password by
its user and not after its expiry, an issued password that was not used yet is accepted from
its user up to the expiry, and an attempt with another text changes none of its answers. -/
theorem onetime_password_authenticates_once {Hash : Type} {sha512Crypt : Nat → Text → Hash}
    {checkUnixhash : Text → Hash → Bool}
    (exact : ∀ salt word passwd,
      checkUnixhash passwd (sha512Crypt salt word) = true ↔ passwd = word)
    {state : State Hash} (reach : Reach (step sha512Crypt checkUnixhash) Always {} state) :
    (state.uses.map Use.text).Nodup ∧
    (∀ use ∈ state.uses, ∃ issue ∈ state.issues, use.text = issue.text) ∧
    ∀ issue ∈ state.issues, (∀ use ∈ state.uses, use.text = issue.text →
        use.uid = issue.uid ∧ use.time ≤ issue.expires) ∧
      (∀ uid,
        (state.manager.authenticate checkUnixhash state.now uid issue.text).2.code = .success ↔
          issue.uid = uid ∧ issue.text ∉ state.uses.map Use.text ∧ state.now ≤ issue.expires) ∧
      ∀ uid plaintext, plaintext ≠ issue.text → ∀ now caller,
        ((state.manager.authenticate checkUnixhash state.now uid plaintext).1.authenticate
            checkUnixhash now caller issue.text).2 =
          (state.manager.authenticate checkUnixhash now caller issue.text).2 := by
  have sound := sound_of_reach exact reach
  refine ⟨sound.once, ?_, fun issue inside => ⟨?_, ?_, ?_⟩⟩
  · intro use useInside
    obtain ⟨issue, inside, text, -, -⟩ := sound.used use useInside
    exact ⟨issue, inside, text⟩
  · intro use useInside text
    obtain ⟨found, foundInside, foundText, owner, inTime⟩ := sound.used use useInside
    obtain rfl := sound.eq_of_text foundInside inside (foundText.symm.trans text)
    exact ⟨owner, inTime⟩
  · exact fun uid => authenticate_text sound inside state.now uid
  · exact fun uid plaintext other now caller => authenticate_other sound inside other now caller

section Example

def letters : RandomString where
  text := replicate 24 'a'
  length_eq := rfl
  alphanumeric := by
    intro char inside
    rw [eq_of_mem_replicate inside]
    rfl

abbrev plainStep : State Text → Label → Option (State Text) :=
  step (fun _ word => word) fun passwd keyhash => passwd == keyhash

/-- The password is presented at its expiry, and then once more. -/
def presentedAtExpiry : List Label :=
  [.generate 1000 false letters 0, .advance 86400,
    .authenticate 1000 (passkey 1 (humanFriendly letters.text)),
    .authenticate 1000 (passkey 1 (humanFriendly letters.text))]

theorem onetime_password_authenticates_once_presented :
    ∃ state : State Text, Reach plainStep Always {} state ∧
      state.uses.length = 1 ∧ (state.uses.map Use.text).Nodup := by
  exact exists_reach_of_run (P := fun state => state.uses.length = 1) presentedAtExpiry
    (by decide +kernel) fun state reach used =>
      ⟨used, (onetime_password_authenticates_once (fun _ _ _ => beq_iff_eq) reach).1⟩

theorem onetime_password_at_expiry : ∃ state : State Text, Reach plainStep Always {} state ∧
      ∃ use ∈ state.uses, ∃ issue ∈ state.issues,
        use.text = issue.text ∧ ¬ use.time < issue.expires := by
  apply exists_reach_of_exec presentedAtExpiry
  decide +kernel

end Example

end TruenasMiddleware.Auth.OneTime
