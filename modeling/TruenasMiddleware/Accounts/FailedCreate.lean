import Mathlib.Tactic.SplitIfs

/-! What a failed `user.create` leaves behind: `do_create` of `plugins/account.py` after the
validation, as the sequence of its calls with the `except` and `finally` clauses around them. A call
that raises has made nothing; `filesystem.mkdir` is two steps, as it can raise behind `os.mkdir`. -/

namespace TruenasMiddleware.Accounts.FailedCreate

inductive Step
  | groupQuery
  | groupCreate
  | groupOfId
  /-- `verrors.check()` for a group that was not found. -/
  | groupMissing
  | builtinUsers
  | nextUid
  | mkdir
  /-- `statx` and `listxattr` of the directory that `os.mkdir` has made. -/
  | mkdirStat
  | setperm
  | webshare
  | compress
  | password
  | insertUser
  | insertTwofactor
  | reloadSsh
  | reloadUser
  | passdb
  | skel
  | sshpubkey
  | userQuery
deriving DecidableEq

structure Input where
  groupCreate : Bool
  /-- There is a local group of the user's name, or the group that was asked for. -/
  groupFound : Bool
  smb : Bool
  uidGiven : Bool
  ownHome : Bool
  homeCreate : Bool
  /-- `mkdir` makes the directory: there is none. -/
  homeMissing : Bool
  skel : Bool

structure Own where
  group : Bool := false
  reservedUid : Bool := false
  home : Bool := false
  row : Bool := false

/-- The calls so far; after an exception, the call that raised and what there is then. -/
abbrev Run := Except (Step × Own) Own

def perform (raises : Step → Bool) (step : Step) (own after : Own) : Run :=
  if raises step then .error (step, own) else .ok after

def onRaise (body : Run) (clean : Own → Own) : Run :=
  match body with
  | .ok own => .ok own
  | .error (step, own) => .error (step, clean own)

def performIf (condition : Bool) (own : Own) (body : Own → Run) : Run :=
  if condition then body own else .ok own

variable (input : Input)

def obtainGroup (raises : Step → Bool) (own : Own) : Run := do
  let own ← perform raises .groupQuery own own
  performIf (!input.groupFound) own fun own =>
    if input.groupCreate then do
      let own ← perform raises .groupCreate own { own with group := true }
      perform raises .groupOfId own own
    else .error (.groupMissing, own)

def setupHomedir (raises : Step → Bool) (own : Own) : Run := do
  let own ← performIf input.homeCreate own fun own => do
    let own ← perform raises .mkdir own { own with home := input.homeMissing }
    performIf input.homeMissing own fun own => perform raises .mkdirStat own own
  onRaise (perform raises .setperm own own) fun own => { own with home := false }

/-- The `try` around the insertions; `new_homedir` is never set. -/
def insertRows (raises : Step → Bool) (own : Own) : Run := do
  let body : Run := do
    let own ← perform raises .password own own
    let own ← perform raises .insertUser own { own with row := true }
    perform raises .insertTwofactor own own
  let own ← onRaise body fun own => { own with row := false, reservedUid := false }
  .ok { own with reservedUid := false }

def afterwards (raises : Step → Bool) (own : Own) : Run := do
  let own ← perform raises .reloadSsh own own
  let own ← perform raises .reloadUser own own
  let own ← performIf input.smb own fun own => perform raises .passdb own own
  let own ← performIf input.skel own fun own => do
    let own ← perform raises .skel own own
    perform raises .sshpubkey own own
  perform raises .userQuery own own

def doCreate (raises : Step → Bool) : Run := do
  let own ← obtainGroup input raises {}
  let own ← performIf input.smb own fun own => perform raises .builtinUsers own own
  let own ← performIf (!input.uidGiven) own fun own =>
    perform raises .nextUid own { own with reservedUid := true }
  let own ← performIf input.ownHome own fun own =>
    onRaise (setupHomedir input raises own) fun own =>
      { own with group := false, reservedUid := false }
  let own ← perform raises .webshare own own
  let own ← perform raises .compress own own
  let own ← insertRows raises own
  afterwards input raises own

def Input.makesGroup : Bool := input.groupCreate && !input.groupFound

def Input.makesHome : Bool :=
  input.ownHome && input.homeCreate && input.homeMissing

/-- Nothing was made before the call that raised, or it is one whose clauses remove it all. -/
def Harmless : Step → Prop
  | .groupQuery | .groupCreate | .groupMissing | .mkdir | .setperm => True
  | .builtinUsers | .nextUid => input.makesGroup = false
  | .webshare | .compress =>
    input.makesGroup = false ∧ input.makesHome = false ∧ input.uidGiven = true
  | .password | .insertUser | .insertTwofactor =>
    input.makesGroup = false ∧ input.makesHome = false
  | _ => False

/-- A part of the call comes to `reached`, or raises with nothing left exactly where that is said to
be harmless. -/
def Leads : Run → Own → Prop
  | .ok own, reached => own = reached
  | .error (step, own), _ => own = {} ↔ Harmless input step

section Leads

variable {input : Input} {raises : Step → Bool} {own after : Own}

theorem Leads.perform {step : Step} (left : own = {} ↔ Harmless input step) :
    Leads input (perform raises step own after) after := by
  unfold FailedCreate.perform
  split
  · exact left
  · exact rfl

theorem Leads.performIf {condition : Bool} {body : Own → Run}
    (yes : condition = true → Leads input (body own) after) (no : condition = false → own = after) :
    Leads input (performIf condition own body) after := by
  cases condition with
  | true => exact yes rfl
  | false => exact no rfl

theorem Leads.bind {body : Run} {rest : Own → Run} (first : Leads input body own)
    (second : Leads input (rest own) after) : Leads input (body >>= rest) after := by
  cases body with
  | error raised => exact first
  | ok here =>
    obtain rfl : here = own := first
    exact second

theorem obtainGroup_leads (input : Input) (raises : Step → Bool) :
    Leads input (obtainGroup input raises {}) { group := input.makesGroup } := by
  refine Leads.bind (Leads.perform (by simp [Harmless])) (Leads.performIf (fun missing => ?_) ?_)
  · split
    · rename_i create
      have made : input.makesGroup = true := by simp [Input.makesGroup, create, missing]
      rw [made]
      exact Leads.bind (Leads.perform (by simp [Harmless])) (Leads.perform (by simp [Harmless]))
    · simp [Leads, Harmless]
  · intro found
    simp [Input.makesGroup, found]

theorem home_leads (group reservedUid : Bool) : Leads input
      (performIf input.ownHome { group, reservedUid } fun own =>
        onRaise (setupHomedir input raises own) fun own =>
          { own with group := false, reservedUid := false })
      { group, reservedUid, home := input.makesHome } := by
  refine Leads.performIf (fun own => ?_) fun default => (by simp [Input.makesHome, default])
  simp only [setupHomedir, performIf, perform, Input.makesHome, own, Bool.true_and]
  cases input.homeCreate with
  | false =>
    cases raises .setperm with
    | true => exact iff_of_true rfl trivial
    | false => rfl
  | true =>
    cases raises .mkdir with
    | true => exact iff_of_true rfl trivial
    | false =>
      -- a directory that was there is left alone
      cases input.homeMissing <;> cases raises .mkdirStat <;> cases raises .setperm
      all_goals first
        | exact rfl
        | exact iff_of_true rfl trivial
        | exact iff_of_false nofun id

theorem insertRows_leads (group reservedUid home : Bool)
    (left : ({ group, home } : Own) = {} ↔ input.makesGroup = false ∧ input.makesHome = false) :
    Leads input (insertRows raises { group, reservedUid, home }) { group, home, row := true } := by
  simp only [insertRows, perform]
  cases raises .password with
  | true => exact left
  | false =>
    cases raises .insertUser with
    | true => exact left
    | false =>
      cases raises .insertTwofactor with
      | true => exact left
      | false => rfl

theorem afterwards_leads (own : Own) (row : own.row = true) :
    Leads input (afterwards input raises own) own := by
  have some : own ≠ {} := fun eq => by
    rw [eq] at row
    cases row
  refine Leads.bind (Leads.perform ?_) (Leads.bind (Leads.perform ?_) (Leads.bind
    (Leads.performIf (fun _ => Leads.perform ?_) fun _ => rfl) (Leads.bind
      (Leads.performIf (fun _ => Leads.bind (Leads.perform ?_) (Leads.perform ?_)) fun _ => rfl)
      (Leads.perform ?_))))
  all_goals simp [Harmless, some]

theorem doCreate_leads (input : Input) (raises : Step → Bool) : Leads input (doCreate input raises)
      { group := input.makesGroup, home := input.makesHome, row := true } := by
  have group := obtainGroup_leads input raises
  have smb : Leads input (performIf input.smb { group := input.makesGroup } fun own =>
      perform raises .builtinUsers own own) { group := input.makesGroup } :=
    Leads.performIf (fun _ => Leads.perform (by simp [Harmless])) fun _ => rfl
  have uid : Leads input (performIf (!input.uidGiven) { group := input.makesGroup } fun own =>
      perform raises .nextUid own { own with reservedUid := true })
      { group := input.makesGroup, reservedUid := !input.uidGiven } :=
    Leads.performIf (fun chosen => chosen ▸ Leads.perform (by simp [Harmless]))
      fun given => (by rw [given])
  refine group.bind (smb.bind (uid.bind ((home_leads _ _).bind (Leads.bind (Leads.perform ?_)
    (Leads.bind (Leads.perform ?_) (Leads.bind (insertRows_leads _ _ _ ?_)
      (afterwards_leads _ rfl)))))))
  all_goals simp [Harmless, and_comm, and_left_comm]

end Leads

/-- Whatever raises: nothing is left that the call made exactly if nothing had been made before, or
what raised is the creation of the group or the home directory. -/
theorem failed_create_clean_iff (input : Input) (raises : Step → Bool) (step : Step) (own : Own)
    (failed : doCreate input raises = .error (step, own)) : own = {} ↔ Harmless input step := by
  have leads := doCreate_leads input raises
  rwa [failed] at leads

def newUser : Input :=
  { groupCreate := true, groupFound := false, smb := false, uidGiven := false, ownHome := true,
    homeCreate := true, homeMissing := true, skel := true }

theorem failed_create_clean_iff_setperm :
    doCreate newUser (· = .setperm) = .error (.setperm, {}) ∧ Harmless newUser .setperm := by
  have failed : doCreate newUser (· = .setperm) = .error (.setperm, {}) := rfl
  exact ⟨failed, (failed_create_clean_iff newUser _ .setperm {} failed).mp rfl⟩

theorem failed_insert_leaves_group :
    doCreate newUser (· = .insertUser) = .error (.insertUser, { group := true, home := true }) :=
  rfl

end TruenasMiddleware.Accounts.FailedCreate
