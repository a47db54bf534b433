import TruenasMiddleware.Auth.Credentials
import TruenasMiddleware.Foundation.Dict

/-! Numeric ids of local accounts: `utils/reserved_ids.py`, and of `plugins/account.py` the
paths of `UserService.do_create`, `get_next_uid`, `GroupService.create_internal` and
`get_next_gid` that validate, choose, reserve and store an id. Users and groups run the same
program over tables of their own, so one system is stated for both. -/

namespace TruenasMiddleware.Accounts

open Auth Transition Dict

inductive Kind
  | user
  | group
deriving DecidableEq

def MIN_AUTO_XID : Nat := 3000

def LOCKED_XID_TTL : Time := 3600

abbrev ReservedXid := List (Nat × Time)

namespace ReservedXid

variable (now : Time)

def available (xid : Nat) (inFlight : ReservedXid) : ReservedXid × Bool :=
  match inFlight.lookup xid with
  | none => (inFlight, true)
  | some expiry =>
    if now > expiry then (pop xid inFlight, true) else (inFlight, false)

/-- `none` where the assertion fails. -/
def addEntry (xid : Nat) (inFlight : ReservedXid) : Option ReservedXid :=
  match available now xid inFlight with
  | (inFlight, true) => some (set xid (now + LOCKED_XID_TTL) inFlight)
  | (_, false) => none

def removeEntry (xid : Nat) (inFlight : ReservedXid) : ReservedXid := pop xid inFlight

/-- The comprehension of `in_use`: each `available` may drop the key it asks for. -/
def inUseLoop (now : Time) : List Nat → ReservedXid → ReservedXid × List Nat
  | [], inFlight => (inFlight, [])
  | entry :: rest, inFlight =>
    let (inFlight, free) := available now entry inFlight
    let (inFlight, used) := inUseLoop now rest inFlight
    (inFlight, if free then used else entry :: used)

def inUse (inFlight : ReservedXid) : ReservedXid × List Nat :=
  inUseLoop now (keys inFlight) inFlight

def live (inFlight : ReservedXid) (xid : Nat) : Bool :=
  (inFlight.lookup xid).any fun expiry => decide (now ≤ expiry)

theorem available_snd (xid : Nat) (inFlight : ReservedXid) :
    (available now xid inFlight).2 = !live now inFlight xid := by
  unfold available live
  cases inFlight.lookup xid with
  | none => rfl
  | some expiry =>
    by_cases late : now > expiry
    · simp [late]
    · simp [late, not_lt.mp late]

theorem lookup_available (xid other : Nat) (inFlight : ReservedXid) :
    (available now xid inFlight).1.lookup other =
      if other = xid ∧ live now inFlight xid = false then none else inFlight.lookup other := by
  unfold available live
  cases found : inFlight.lookup xid with
  | none =>
    by_cases eq : other = xid
    · simp [eq, found]
    · simp [eq]
  | some expiry =>
    by_cases late : now > expiry
    · simp [late, lookup_pop]
    · simp [late, not_lt.mp late]

theorem live_available (xid : Nat) (inFlight : ReservedXid) :
    live now (available now xid inFlight).1 = live now inFlight := by
  funext other
  rw [live, lookup_available]
  split
  · rename_i dropped
    rw [dropped.1, dropped.2]
    rfl
  · rfl

theorem inUseLoop_snd (entries : List Nat) (inFlight : ReservedXid) :
    (inUseLoop now entries inFlight).2 = entries.filter (live now inFlight) := by
  induction entries generalizing inFlight with
  | nil => rfl
  | cons entry rest ih =>
    simp only [inUseLoop, available_snd, ih, live_available]
    cases alive : live now inFlight entry <;> simp [alive]

theorem lookup_inUseLoop (entries : List Nat) (inFlight : ReservedXid) (xid : Nat) :
    (inUseLoop now entries inFlight).1.lookup xid =
      if xid ∈ entries ∧ live now inFlight xid = false then none else inFlight.lookup xid := by
  induction entries generalizing inFlight with
  | nil => simp [inUseLoop]
  | cons entry rest ih =>
    simp only [inUseLoop, ih, live_available, lookup_available]
    by_cases eq : xid = entry
    · subst eq
      cases live now inFlight xid <;> simp
    · simp [eq]

variable {now : Time} {inFlight : ReservedXid} {xid : Nat}

theorem mem_inUse : xid ∈ (inUse now inFlight).2 ↔ live now inFlight xid := by
  rw [inUse, inUseLoop_snd, List.mem_filter]
  refine ⟨And.right, fun alive => ⟨?_, alive⟩⟩
  rw [← lookup_isSome]
  rw [live] at alive
  cases found : inFlight.lookup xid with
  | none => simp [found] at alive
  | some expiry => rfl

theorem lookup_inUse (now : Time) (inFlight : ReservedXid) (xid : Nat) :
    (inUse now inFlight).1.lookup xid =
      if live now inFlight xid then inFlight.lookup xid else none := by
  rw [inUse, lookup_inUseLoop]
  cases alive : live now inFlight xid with
  | true => simp
  | false =>
    by_cases known : xid ∈ keys inFlight
    · simp [known]
    · simp [known, lookup_eq_none.mpr known]

theorem addEntry_inUse (free : xid ∉ (inUse now inFlight).2) :
    addEntry now xid (inUse now inFlight).1 =
      some (set xid (now + LOCKED_XID_TTL) (inUse now inFlight).1) := by
  have dropped : (inUse now inFlight).1.lookup xid = none := by
    rw [lookup_inUse, if_neg (mt mem_inUse.mpr free)]
  rw [addEntry, available, dropped]

end ReservedXid

/-- A row of `account.bsdusers` or `account.bsdgroups`. `createdBy` stands for the primary key
that the insert of a create returned. -/
structure Row where
  xid : Nat
  builtin : Bool := false
  createdBy : Option Nat := none

inductive Stage
  | validating
  | numbering
  /-- Inside `get_next_uid`, under its lock, after the query of the table. -/
  | choosing (allocated : List Nat)
  | chosen (xid : Nat)
  | inserted (xid : Nat)
  /-- The row was deleted because the two-factor row could not be stored. -/
  | rolledBack (xid : Nat)
  | released (xid : Nat)
  | returned
  | failed
deriving DecidableEq

def Stage.held : Stage → Option Nat
  | .chosen xid => some xid
  | .inserted xid => some xid
  | .rolledBack xid => some xid
  | .released xid => some xid
  | _ => none

/-- A create whose id has no row: before the insert, or after its row was deleted. -/
def Stage.exposed : Stage → Option Nat
  | .chosen xid => some xid
  | .rolledBack xid => some xid
  | _ => none

def Stage.stored : Stage → Option Nat
  | .inserted xid => some xid
  | .released xid => some xid
  | _ => none

def Stage.reserving : Stage → Option Nat
  | .chosen xid => some xid
  | .inserted xid => some xid
  | .rolledBack xid => some xid
  | _ => none

def Stage.allocated : Stage → Option (List Nat)
  | .choosing allocated => some allocated
  | _ => none

/-- One call of `user.create` or `group.create`; `explicit` is its `uid` or `gid`. -/
structure Create where
  explicit : Option Nat
  stage : Stage
deriving DecidableEq

structure State where
  accounts : List Row := []
  /-- The ids that `get_user_obj` or `get_group_obj` finds. -/
  nss : List Nat := []
  usedLocalGids : List Nat := []
  inFlight : ReservedXid := []
  now : Time := 0
  creates : List Create := []

inductive Label
  | request (explicit : Option Nat)
  | validate (i : Nat)
  | reject (i : Nat)
  | startNext (i : Nat)
  | pickNext (i : Nat)
  /-- An error between the choice and the insert that leaves the reservation; also a plain
  call of `user.get_next_uid`, which reserves and stores nothing. -/
  | abandon (i : Nat)
  /-- An error that removes the reservation: no home directory, or no insert. -/
  | abort (i : Nat)
  | insert (i : Nat)
  | rollBack (i : Nat)
  | release (i : Nat)
  | finish (i : Nat) (reload : Bool)
  | reload
  | privileges (gids : List Nat)
  | tick (now : Time)

/-- What does not change: the kind of account, and the ids of the directory service. -/
structure System where
  kind : Kind
  directory : List Nat := []

def xids (accounts : List Row) : List Nat := accounts.map Row.xid

/-- The query of `get_next_uid`; for groups the ids of privileges are added. -/
def allocatedXids (kind : Kind) (state : State) : List Nat :=
  xids (state.accounts.filter fun row => !row.builtin && decide (MIN_AUTO_XID ≤ row.xid)) ++
    match kind with
    | .user => []
    | .group => state.usedLocalGids.filter fun gid => decide (MIN_AUTO_XID ≤ gid)

def totalXids (state : State) (allocated : List Nat) : List Nat :=
  allocated ++ (ReservedXid.inUse state.now state.inFlight).2

def maxXid (total : List Nat) : Nat := total.max?.getD (MIN_AUTO_XID - 1)

def gaps (total : List Nat) : List Nat :=
  (List.range' MIN_AUTO_XID (maxXid total - MIN_AUTO_XID)).filter fun xid => decide (xid ∉ total)

def nextXid (total : List Nat) : Nat := (gaps total).head?.getD (maxXid total + 1)

theorem le_maxXid {total : List Nat} {xid : Nat} (mem : xid ∈ total) : xid ≤ maxXid total := by
  rw [maxXid]
  cases largest : total.max? with
  | none => simp [List.max?_eq_none_iff.mp largest] at mem
  | some max => exact (List.max?_eq_some_iff.mp largest).2 xid mem

theorem nextXid_not_mem (total : List Nat) : nextXid total ∉ total := by
  rw [nextXid]
  cases first : (gaps total).head? with
  | none =>
    intro inside
    have bound := le_maxXid inside
    simp at bound
  | some gap =>
    have mem : gap ∈ gaps total := List.mem_of_mem_head? first
    simpa using (List.mem_filter.mp mem).2

theorem nextXid_mem_range {total : List Nat} (auto : ∀ xid ∈ total, MIN_AUTO_XID ≤ xid) :
    MIN_AUTO_XID ≤ nextXid total ∧ nextXid total ≤ maxXid total + 1 := by
  have floor : MIN_AUTO_XID ≤ maxXid total + 1 := by
    rw [maxXid]
    cases largest : total.max? with
    | none => decide
    | some max => exact Nat.le_succ_of_le (auto max (List.max?_mem largest))
  rw [nextXid]
  cases first : (gaps total).head? with
  | none => exact ⟨floor, Nat.le_refl _⟩
  | some gap =>
    have mem : gap ∈ gaps total := List.mem_of_mem_head? first
    have bounds := List.mem_range'_1.mp (List.mem_filter.mp mem).1
    simp only [Option.getD_some]
    omega

/-- The lock around `get_next_uid` and around every removal of a reservation. -/
def State.locked (state : State) : Bool :=
  state.creates.any fun create => create.stage.allocated.isSome

def State.move (state : State) (i : Nat) (create : Create) : State :=
  { state with creates := state.creates.set i create }

def taken (kind : Kind) (state : State) : List Nat :=
  match kind with
  | .user => state.nss
  | .group => state.nss ++ state.usedLocalGids

def regenerate (system : System) (state : State) : State :=
  { state with nss := system.directory ++ xids state.accounts }

def validate (system : System) (state : State) (i : Nat) : Option Nat → State
  | none => state.move i ⟨none, .numbering⟩
  | some xid =>
    if xid ∈ taken system.kind state then state.move i ⟨some xid, .failed⟩
    else state.move i ⟨some xid, .chosen xid⟩

def pickNext (state : State) (i : Nat) (allocated : List Nat) : Option State :=
  let inFlight := (ReservedXid.inUse state.now state.inFlight).1
  let xid := nextXid (totalXids state allocated)
  (ReservedXid.addEntry state.now xid inFlight).map fun inFlight =>
    { state.move i ⟨none, .chosen xid⟩ with inFlight := inFlight }

def removeEntry (state : State) (xid : Nat) : State :=
  { state with inFlight := ReservedXid.removeEntry xid state.inFlight }

def step (system : System) (state : State) : Label → Option State
  | .request explicit =>
    some { state with creates := state.creates ++ [⟨explicit, .validating⟩] }
  | .validate i =>
    match state.creates[i]? with
    | some ⟨explicit, .validating⟩ => some (validate system state i explicit)
    | _ => none
  | .reject i =>
    match state.creates[i]? with
    | some ⟨explicit, .validating⟩ => some (state.move i ⟨explicit, .failed⟩)
    | some ⟨explicit, .numbering⟩ => some (state.move i ⟨explicit, .failed⟩)
    | _ => none
  | .startNext i =>
    match state.creates[i]?, state.locked with
    | some ⟨none, .numbering⟩, false =>
      some (state.move i ⟨none, .choosing (allocatedXids system.kind state)⟩)
    | _, _ => none
  | .pickNext i =>
    match state.creates[i]? with
    | some ⟨none, .choosing allocated⟩ => pickNext state i allocated
    | _ => none
  | .abandon i =>
    match state.creates[i]? with
    | some ⟨explicit, .chosen _⟩ => some (state.move i ⟨explicit, .failed⟩)
    | _ => none
  | .abort i =>
    match state.creates[i]?, state.locked with
    | some ⟨explicit, .chosen xid⟩, false =>
      some (removeEntry (state.move i ⟨explicit, .failed⟩) xid)
    | _, _ => none
  | .insert i =>
    match state.creates[i]? with
    | some ⟨explicit, .chosen xid⟩ =>
      some { state.move i ⟨explicit, .inserted xid⟩ with
        accounts := state.accounts ++ [⟨xid, false, some i⟩] }
    | _ => none
  | .rollBack i =>
    match state.creates[i]?, system.kind with
    | some ⟨explicit, .inserted xid⟩, .user =>
      some { state.move i ⟨explicit, .rolledBack xid⟩ with
        accounts := state.accounts.filter fun row => decide (row.createdBy ≠ some i) }
    | _, _ => none
  | .release i =>
    match state.creates[i]?, state.locked with
    | some ⟨explicit, .inserted xid⟩, false =>
      some (removeEntry (state.move i ⟨explicit, .released xid⟩) xid)
    | some ⟨explicit, .rolledBack xid⟩, false =>
      some (removeEntry (state.move i ⟨explicit, .failed⟩) xid)
    | _, _ => none
  -- Only `create_internal` has `reload_users=False`, for the primary group of a new user.
  | .finish i reload =>
    match state.creates[i]? with
    | some ⟨explicit, .released _⟩ =>
      if reload then some (regenerate system (state.move i ⟨explicit, .returned⟩))
      else if system.kind = .group then some (state.move i ⟨explicit, .returned⟩)
      else none
    | _ => none
  | .reload => some (regenerate system state)
  | .privileges gids => some { state with usedLocalGids := gids }
  | .tick now => if state.now ≤ now then some { state with now := now } else none

end TruenasMiddleware.Accounts
