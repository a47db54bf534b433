import TruenasMiddleware.Foundation.Dict
import TruenasMiddleware.Foundation.Transition

/-! The jobs `sync_zfs_keys` and `sync_sed_keys` of `plugins/kmip`. A key is in the database, on
the KMIP server under the row's `kmip_uid`, or both; a push moves it to the server and a pull back
to the database. A job reads rows and works on what it has read; between two of its steps any
other job may run. -/

namespace TruenasMiddleware.Kmip

open Function

/-- A row with a key: of `storage.encrypteddataset`, of `storage.disk`, and the one of
`system.advanced`. -/
inductive Slot
  | zfs (id : Nat)
  | disk (id : Nat)
  | global
deriving DecidableEq

structure Row where
  key : String := ""
  uid : Option Nat := none
deriving DecidableEq

inductive Kind
  | zfs
  | sed
deriving DecidableEq

inductive Mode
  | push
  | pull
deriving DecidableEq

/-- What a job has still to do: read the rows, read `system.advanced`, handle a row as it was read,
or drop the ZFS keys in memory. -/
inductive Task
  | query
  | config
  | row (slot : Slot) (row : Row)
  | clear

inductive Phase
  | idle
  /-- Push: a retrieved key is put into memory. -/
  | remember (slot : Slot) (key : String)
  | destroy (slot : Slot) (key : String) (uid : Nat)
  /-- Push of the global password: its uid is taken out of the database. -/
  | forget (key : String)
  | register (slot : Slot) (key : String) (destroyed : Bool)
  | store (slot : Slot) (uid : Nat)
  /-- Push: the old secret is gone and the new one was not registered. -/
  | forgetUid (slot : Slot)
  /-- Pull: the key goes to the database. -/
  | write (slot : Slot) (key : String) (uid : Option Nat)
  | pop (slot : Slot) (uid : Option Nat)
  | delete (slot : Slot) (uid : Option Nat)
deriving DecidableEq

/-- A running job; `args` are the `ids` it was called with, which are part of its lock. -/
structure Job where
  kind : Kind
  mode : Mode
  args : Option (List Nat)
  tasks : List Task
  phase : Phase := .idle

/-- For which row and by which job a secret was registered, and whether a row has named it. -/
structure Registered where
  slot : Slot
  job : Nat
  named : Bool

/-- The database, the server and what the service has in memory. -/
structure Vault where
  db : Slot → Row
  server : Nat → Option String
  fresh : Nat
  memory : Slot → Option String := fun _ => none
  /-- Not read by the program. -/
  history : Nat → Registered

structure State where
  vault : Vault
  jobs : List (Nat × Job) := []

structure Answer where
  ids : List Nat := []
  ok : Bool := true
  /-- A destroy takes effect although it fails; a failed registration leaves a secret behind. -/
  effect : Bool := false
  connected : Bool := true
  /-- `check_key` answers and does not raise. -/
  checked : Bool := true

inductive Label
  | start (id : Nat) (kind : Kind) (mode : Mode) (args : Option (List Nat))
  | run (id : Nat) (answer : Answer)
  | leave (id : Nat)

namespace Vault

variable (vault : Vault)

def remember (slot : Slot) (key : Option String) : Vault :=
  { vault with memory := update vault.memory slot key }

def write (slot : Slot) (row : Row) : Vault :=
  { vault with db := update vault.db slot row }

def erase (uid : Nat) : Vault :=
  { vault with server := update vault.server uid none }

def register (slot : Slot) (job : Nat) (key : String) : Vault :=
  { vault with
    server := update vault.server vault.fresh (some key)
    fresh := vault.fresh + 1
    history := update vault.history vault.fresh ⟨slot, job, false⟩ }

def store (slot : Slot) (uid : Nat) : Vault :=
  { vault.write slot ⟨"", some uid⟩ with
    history := update vault.history uid { vault.history uid with named := true } }

def clearZfs : Vault :=
  { vault with memory := fun slot =>
      match slot with
      | .zfs _ => none
      | slot => vault.memory slot }

section Reads

variable (vault : Vault) (slot : Slot) (uid : Nat)

theorem remember_memory (key : Option String) (other : Slot) :
    (vault.remember slot key).memory other = if other = slot then key else vault.memory other :=
  update_apply _ _ _ _

theorem write_db (row : Row) (other : Slot) :
    (vault.write slot row).db other = if other = slot then row else vault.db other :=
  update_apply _ _ _ _

theorem erase_server (other : Nat) :
    (vault.erase uid).server other = if other = uid then none else vault.server other :=
  update_apply _ _ _ _

theorem register_server (job : Nat) (key : String) (other : Nat) :
    (vault.register slot job key).server other =
      if other = vault.fresh then some key else vault.server other :=
  update_apply _ _ _ _

theorem register_history (job : Nat) (key : String) (other : Nat) :
    (vault.register slot job key).history other =
      if other = vault.fresh then ⟨slot, job, false⟩ else vault.history other :=
  update_apply _ _ _ _

theorem store_db (other : Slot) :
    (vault.store slot uid).db other = if other = slot then ⟨"", some uid⟩ else vault.db other :=
  update_apply _ _ _ _

theorem store_history (other : Nat) : (vault.store slot uid).history other =
      if other = uid then { vault.history uid with named := true } else vault.history other :=
  update_apply _ _ _ _

end Reads

def secret (vault : Vault) (row : Row) : Option String := row.uid.bind vault.server

/-- The key that can be recovered from a row, the database first. -/
def current (vault : Vault) (slot : Slot) : String :=
  if (vault.db slot).key = "" then (vault.secret (vault.db slot)).getD "" else (vault.db slot).key

end Vault

/-- The rows that a job asks for; a pull takes every row with a uid, whatever its `ids`. -/
def selected (kind : Kind) (mode : Mode) (args : Option (List Nat)) (id : Nat) (row : Row) : Bool :=
  match mode, args with
  | .pull, _ => row.uid.isSome
  | .push, none => true
  | .push, some ids => decide (id ∈ ids) || (decide (kind = .sed) && ids.isEmpty)

def Kind.slot : Kind → Nat → Slot
  | .zfs, id => .zfs id
  | .sed, id => .disk id

variable (vault : Vault)

/-- The tasks of a job that begins; a push of SED keys has read `system.advanced` first. -/
def tasksOf : Kind → Mode → List Task
  | .zfs, _ => [.query, .clear]
  | .sed, .push => [.query, .row .global (vault.db .global)]
  | .sed, .pull => [.query, .config]

def queried (job : Job) (ids : List Nat) : List Task :=
  ((ids.map fun id => (id, vault.db (job.kind.slot id))).filter fun entry =>
      selected job.kind job.mode job.args entry.1 entry.2).map
    fun entry => .row (job.kind.slot entry.1) entry.2

section Step

-- `check_key`: whether a key opens a dataset
variable (opens : Nat → String → Bool)

/-- The key in memory that is used without asking the server: a ZFS key that opens its dataset,
any SED key that is not empty. -/
def usable (vault : Vault) : Slot → Option String
  | .zfs id => (vault.memory (.zfs id)).filter (opens id)
  | slot => (vault.memory slot).filter (· ≠ "")

def checkRaises (answer : Answer) : Slot → Bool
  | .zfs id => (vault.memory (.zfs id)).isSome && !answer.checked
  | _ => false

def beginPush (vault : Vault) (slot : Slot) (row : Row) (answer : Answer) : Vault × Phase :=
  if row.key = "" then
    if checkRaises vault answer slot then (vault, .idle)
    else match slot, usable opens vault slot, vault.secret row with
    | .zfs _, some _, _ => (vault, .idle)
    | _, _, some key => (vault, if answer.ok then .remember slot key else .idle)
    | _, _, none => (vault, .idle)
  else
    match slot, row.uid with
    | .global, some uid => (vault, .destroy .global row.key uid)
    | slot, some uid => (vault.remember slot (some row.key), .destroy slot row.key uid)
    | slot, none => (vault.remember slot (some row.key), .register slot row.key false)

def beginPull (vault : Vault) (slot : Slot) (row : Row) (answer : Answer) : Phase :=
  if row.key ≠ "" then .write slot row.key row.uid
  else if checkRaises vault answer slot then .idle
  else
    match usable opens vault slot, vault.secret row with
    | some key, _ => .write slot key row.uid
    | none, some key => if answer.connected && answer.ok then .write slot key row.uid else .idle
    | none, none => .idle

def beginRow (vault : Vault) (mode : Mode) (slot : Slot) (row : Row) (answer : Answer) :
    Vault × Phase :=
  match mode with
  | .push => beginPush opens vault slot row answer
  | .pull => (vault, beginPull opens vault slot row answer)

def beginTask (vault : Vault) (job : Job) (answer : Answer) : Option (Vault × Job) :=
  match job.tasks with
  | [] => none
  | .query :: rest => some (vault, { job with tasks := queried vault job answer.ids ++ rest })
  | .config :: rest =>
    some (vault, { job with
      tasks := if (vault.db .global).uid.isSome then .row .global (vault.db .global) :: rest
        else rest })
  | .row slot row :: rest =>
    let (vault, phase) := beginRow opens vault job.mode slot row answer
    some (vault, { job with tasks := rest, phase := phase })
  -- the names are looked for among dictionaries, so that none is found
  | .clear :: rest => some (vault.clearZfs, { job with tasks := rest })

/-- What a push registers: the key in memory, a `KeyError` where there is none. -/
def toRegister : Slot → Option String
  | .global => some ((vault.memory .global).getD "")
  | slot => vault.memory slot

def registrationFailed (slot : Slot) (destroyed : Bool) : Phase :=
  if destroyed && decide (slot ≠ .global) then .forgetUid slot else .idle

def registerKey (id : Nat) (slot : Slot) (destroyed : Bool) (answer : Answer) : Vault × Phase :=
  match toRegister vault slot with
  | none => (vault, registrationFailed slot destroyed)
  | some key =>
    if answer.ok then (vault.register slot id key, .store slot vault.fresh)
    else
      (if answer.effect then vault.register slot id key else vault,
        registrationFailed slot destroyed)

def advancePhase (id : Nat) (answer : Answer) : Phase → Vault × Phase
  | .idle => (vault, .idle)
  | .remember slot key => (vault.remember slot (some key), .idle)
  | .destroy slot key uid =>
    let destroyed := if answer.ok || answer.effect then vault.erase uid else vault
    match slot with
    | .global => (destroyed, .forget key)
    | slot => (destroyed, .register slot key answer.ok)
  | .forget key =>
    ((vault.write .global { vault.db .global with uid := none }).remember .global (some key),
      .register .global key false)
  | .register slot _ destroyed => registerKey vault id slot destroyed answer
  | .store slot uid => (vault.store slot uid, .idle)
  | .forgetUid slot => (vault.write slot { vault.db slot with uid := none }, .idle)
  | .write slot key uid =>
    if slot = .global ∧ key = "" then (vault, .idle)
    else (vault.write slot ⟨key, none⟩, .pop slot uid)
  | .pop slot uid =>
    (vault.remember slot none, if answer.connected then .delete slot uid else .idle)
  | .delete _ uid =>
    (match uid with
      | some uid => if answer.ok || answer.effect then vault.erase uid else vault
      | none => vault, .idle)

def advance (vault : Vault) (id : Nat) (job : Job) (answer : Answer) : Option (Vault × Job) :=
  match job.phase with
  | .idle => beginTask opens vault job answer
  | phase =>
    let (vault, next) := advancePhase vault id answer phase
    some (vault, { job with phase := next })

def step (state : State) : Label → Option State
  | .start id kind mode args =>
    if id ∈ Dict.keys state.jobs ∨
        ∃ entry ∈ state.jobs, (entry.2.kind, entry.2.args) = (kind, args) then none
    else
      some { state with
        jobs := Dict.set id ⟨kind, mode, args, tasksOf state.vault kind mode, .idle⟩ state.jobs }
  | .run id answer =>
    match state.jobs.lookup id with
    | none => none
    | some job =>
      (advance opens state.vault id job answer).map fun (vault, job) =>
        ⟨vault, Dict.set id job state.jobs⟩
  | .leave id => some { state with jobs := Dict.pop id state.jobs }

end Step

end TruenasMiddleware.Kmip
