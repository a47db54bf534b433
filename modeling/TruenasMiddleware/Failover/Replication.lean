import Mathlib.Tactic.SplitIfs
import TruenasMiddleware.Foundation.Transition

/-! `plugins/failover_/datastore.py`: what the master does after each `execute_write`, and what
the other controller receives. Writes, `send` and `set_failure` run in the one thread of the
datastore, so they follow each other; the answers they ask for, the retry threads and the other
controller interleave with each of their steps. What a statement does to a database is given,
and so is the alembic revision of a database. -/

namespace TruenasMiddleware.Failover

open Transition

inductive FailoverStatus
  | master
  | backup
  | electing
  | importing
  | error
  | single
deriving DecidableEq

structure Controllers (Statement Database : Type) where
  /-- `none` when the statement raises. -/
  execute : Database → Statement → Option Database
  revision : Database → String
  version : String
  remoteVersion : String

inductive Received (Statement Database : Type)
  | statement (sql : Statement)
  | database (copy : Database)

inductive Phase (Statement : Type)
  | idle
  | hook (sql : Statement) (haSync : Bool)
  | isFailure (sql : Statement)
  | inProgress (sql : Statement)
  | callRemote (sql : Statement)
  | setFailure
  | remoteStatus
  /-- `send`, called by `set_failure` or by others. -/
  | send (bySetFailure : Bool)

inductive Retry
  | sleeping
  | sawFailure
  | sawNoProgress
  | clearing
  | calling
  | waiting

inductive Delivery
  | answered
  /-- Executed, but the call raises. -/
  | replyLost
  /-- The call raises, and the statement arrives later. -/
  | delayed
  | undelivered

inductive Sending
  | done
  /-- The copy is received, but `send` raises. -/
  | replyLost
  | undelivered

structure State (Statement Database : Type) where
  database : Database
  remoteInitial : Database
  /-- The latest first. -/
  received : List (Received Statement Database) := []
  failure : Bool := false
  licensed : Bool := true
  inProgress : Bool := false
  status : FailoverStatus := .master
  remoteStatus : FailoverStatus := .backup
  thread : Phase Statement := .idle
  retries : List Retry := []
  /-- `force_send` calls that have seen the status MASTER. -/
  forced : Nat := 0
  inFlight : List Statement := []
  /-- Since the last copy, a write was skipped by a guard other than the failure flag or dropped
  by the other controller, the flag was cleared without a copy, or a statement was executed
  after its call had failed. -/
  gap : Bool := false

variable {Statement Database : Type} (controllers : Controllers Statement Database)

def Received.replay (database : Database) : Received Statement Database → Database
  | .statement sql => (controllers.execute database sql).getD database
  | .database copy =>
    if controllers.revision database ≠ controllers.revision copy then database else copy

variable (state : State Statement Database)

def State.remote : Database :=
  state.received.foldr (fun received database => received.replay controllers database)
    state.remoteInitial

def State.accepts : Bool :=
  decide (controllers.remoteVersion = controllers.version) &&
    decide (state.remoteStatus = .backup)

def State.sql (state : State Statement Database) (sql : Statement) :
    State Statement Database × Bool :=
  if state.accepts controllers then
    if (controllers.execute (state.remote controllers) sql).isSome then
      ({ state with received := .statement sql :: state.received }, false)
    else (state, true)
  else ({ state with gap := true }, false)

inductive Label (Statement : Type)
  | setLicensed (licensed : Bool)
  | setInProgress (inProgress : Bool)
  | setStatus (status : FailoverStatus)
  | setRemoteStatus (status : FailoverStatus)
  | write (sql : Statement) (haSync : Bool)
  | startSend
  | forceSend
  | startForced
  /-- The next check of the hook or of `set_failure`. -/
  | check
  | callRemote (delivery : Delivery)
  | remoteStatus (answered : Bool)
  | send (sending : Sending)
  | retry (index : Nat)
  | arrive (index : Nat)

def check : Option (State Statement Database) :=
  match state.thread with
  | .hook sql haSync =>
    if !haSync then some { state with thread := .idle, gap := true }
    else if !state.licensed then some { state with thread := .idle, gap := true }
    else some { state with thread := .isFailure sql }
  | .isFailure sql =>
    if state.failure then some { state with thread := .idle }
    else some { state with thread := .inProgress sql }
  | .inProgress sql =>
    if state.inProgress then some { state with thread := .idle, gap := true }
    else some { state with thread := .callRemote sql }
  | .setFailure =>
    if state.failure then some { state with thread := .idle }
    else some { state with failure := true, thread := .remoteStatus }
  | _ => none

def callRemote (state : State Statement Database) (delivery : Delivery) :
    Option (State Statement Database) :=
  match state.thread with
  | .callRemote sql =>
    match delivery with
    | .answered =>
      let result := state.sql controllers sql
      some { result.1 with thread := if result.2 then .setFailure else .idle }
    | .replyLost => some { (state.sql controllers sql).1 with thread := .setFailure }
    | .delayed => some { state with inFlight := sql :: state.inFlight, thread := .setFailure }
    | .undelivered => some { state with thread := .setFailure }
  | _ => none

def remoteStatus (state : State Statement Database) (answered : Bool) :
    Option (State Statement Database) :=
  match state.thread with
  | .remoteStatus =>
    if !answered then some { state with thread := .idle, retries := .sleeping :: state.retries }
    else if state.remoteStatus = .backup then some { state with thread := .send true }
    else some { state with failure := false, thread := .idle, gap := true }
  | _ => none

/-- The retry thread that called `send` goes on when it has ended. -/
def Retry.sent : Retry → Retry
  | .waiting => .sleeping
  | retry => retry

def send (state : State Statement Database) (sending : Sending) :
    Option (State Statement Database) :=
  match state.thread with
  | .send bySetFailure =>
    let retries := state.retries.map Retry.sent
    -- `set_failure` answers an exception with a retry thread; other callers let it pass.
    let afterRaise := if bySetFailure then .sleeping :: retries else retries
    match sending with
    | .done =>
      some { state with
        received := .database state.database :: state.received
        failure := false, thread := .idle, retries := retries, gap := false }
    | .replyLost =>
      some { state with
        received := .database state.database :: state.received
        thread := .idle, retries := afterRaise, gap := false }
    | .undelivered => some { state with thread := .idle, retries := afterRaise }
  | _ => none

def retry (index : Nat) : Option (State Statement Database) :=
  match state.retries[index]? with
  | some .sleeping =>
    if !state.failure then some { state with retries := state.retries.eraseIdx index }
    else some { state with retries := state.retries.set index .sawFailure }
  | some .sawFailure =>
    if state.inProgress then some { state with retries := state.retries.set index .sleeping }
    else some { state with retries := state.retries.set index .sawNoProgress }
  | some .sawNoProgress =>
    if state.status ≠ .master then
      some { state with retries := state.retries.set index .clearing }
    else some { state with retries := state.retries.set index .calling }
  | some .clearing =>
    some { state with
      failure := false, retries := state.retries.eraseIdx index, gap := true }
  | some .calling =>
    match state.thread with
    | .idle =>
      some { state with
        thread := .send false, retries := state.retries.set index .waiting }
    | _ => none
  | _ => none

def arrive (index : Nat) : Option (State Statement Database) :=
  state.inFlight[index]?.map fun sql =>
    let state := { state with inFlight := state.inFlight.eraseIdx index }
    { (state.sql controllers sql).1 with gap := true }

def step : Label Statement → Option (State Statement Database)
  | .setLicensed licensed => some { state with licensed := licensed }
  | .setInProgress inProgress => some { state with inProgress := inProgress }
  | .setStatus status => some { state with status := status }
  | .setRemoteStatus status => some { state with remoteStatus := status }
  | .write sql haSync =>
    match state.thread with
    | .idle =>
      match controllers.execute state.database sql with
      | none => some state
      | some database => some { state with database := database, thread := .hook sql haSync }
    | _ => none
  | .startSend =>
    match state.thread with
    | .idle => some { state with thread := .send false }
    | _ => none
  | .forceSend =>
    if state.status = .master then some { state with forced := state.forced + 1 } else some state
  | .startForced =>
    match state.thread, state.forced with
    | .idle, forced + 1 => some { state with thread := .setFailure, forced := forced }
    | _, _ => none
  | .check => check state
  | .callRemote delivery => callRemote controllers state delivery
  | .remoteStatus answered => remoteStatus state answered
  | .send sending => send state sending
  | .retry index => retry state index
  | .arrive index => arrive controllers state index

section Invariant

variable {controllers} {state next : State Statement Database}

def State.Whole (state : State Statement Database) : Prop :=
  state.failure = false ∧ state.gap = false

def Holds (controllers : Controllers Statement Database) (state : State Statement Database) :
    Phase Statement → Prop
  | .idle | .send false => state.Whole → state.remote controllers = state.database
  | .hook sql _ | .isFailure sql | .inProgress sql | .callRemote sql =>
    state.Whole → controllers.execute (state.remote controllers) sql = some state.database
  | .setFailure => True
  | .remoteStatus | .send true => ¬ state.Whole

structure Consistent (controllers : Controllers Statement Database)
    (state : State Statement Database) : Prop where
  revision : controllers.revision (state.remote controllers) = controllers.revision state.database
  holds : Holds controllers state state.thread

/-- Statements do not migrate the database. -/
def Controllers.Stable (controllers : Controllers Statement Database) : Prop :=
  ∀ database sql result, controllers.execute database sql = some result →
    controllers.revision result = controllers.revision database

theorem not_whole_of_failure (failure : state.failure = true) : ¬ state.Whole :=
  fun whole => Bool.false_ne_true (whole.1.symm.trans failure)

theorem not_whole_of_gap (gap : state.gap = true) : ¬ state.Whole :=
  fun whole => Bool.false_ne_true (whole.2.symm.trans gap)

theorem holds_of_not_whole (open_ : ¬ state.Whole) (phase : Phase Statement) :
    Holds controllers state phase := by
  cases phase with
  | idle | hook | isFailure | inProgress | callRemote => exact fun whole => absurd whole open_
  | setFailure => trivial
  | remoteStatus => exact open_
  | send bySetFailure =>
    cases bySetFailure with
    | false => exact fun whole => absurd whole open_
    | true => exact open_

theorem Consistent.of_not_whole (revision : controllers.revision (next.remote controllers) =
      controllers.revision next.database) (open_ : ¬ next.Whole) : Consistent controllers next :=
  ⟨revision, holds_of_not_whole open_ next.thread⟩

variable (stable : controllers.Stable)
include stable

theorem revision_statement (database : Database) (sql : Statement) :
    controllers.revision (Received.replay controllers database (.statement sql)) =
      controllers.revision database := by
  rw [Received.replay]
  cases run : controllers.execute database sql with
  | none => rfl
  | some result => exact stable _ _ _ run

theorem revision_sql (state : State Statement Database) (sql : Statement) :
    controllers.revision ((state.sql controllers sql).1.remote controllers) =
      controllers.revision (state.remote controllers) := by
  rw [State.sql]
  split_ifs
  · exact revision_statement stable _ sql
  · rfl
  · rfl

omit stable in
theorem database_sql (controllers : Controllers Statement Database)
    (state : State Statement Database) (sql : Statement) :
    (state.sql controllers sql).1.database = state.database := by
  rw [State.sql]
  split_ifs <;> rfl

variable (consistent : Consistent controllers state)
include consistent

omit stable in
theorem Consistent.check
    (taken : Failover.check state = some next) : Consistent controllers next := by
  have holds := consistent.holds
  simp only [Failover.check] at taken
  split at taken
  · rename_i sql haSync named
    rw [named] at holds
    split_ifs at taken <;> cases taken
    · exact .of_not_whole consistent.revision (not_whole_of_gap rfl)
    · exact .of_not_whole consistent.revision (not_whole_of_gap rfl)
    · exact ⟨consistent.revision, holds⟩
  · rename_i sql named
    rw [named] at holds
    split_ifs at taken with failure <;> cases taken
    · exact .of_not_whole consistent.revision (not_whole_of_failure failure)
    · exact ⟨consistent.revision, holds⟩
  · rename_i sql named
    rw [named] at holds
    split_ifs at taken <;> cases taken
    · exact .of_not_whole consistent.revision (not_whole_of_gap rfl)
    · exact ⟨consistent.revision, holds⟩
  · split_ifs at taken with failure <;> cases taken
    · exact .of_not_whole consistent.revision (not_whole_of_failure failure)
    · exact .of_not_whole consistent.revision (not_whole_of_failure rfl)
  · cases taken

theorem Consistent.answered {sql : Statement} (thread : state.thread = .callRemote sql) :
    Consistent controllers { (state.sql controllers sql).1 with
      thread := if (state.sql controllers sql).2 then .setFailure else .idle } := by
  have revision := (revision_sql stable state sql).trans consistent.revision
  have holds := consistent.holds
  rw [thread] at holds
  by_cases accepts : state.accepts controllers = true
  · cases run : controllers.execute (state.remote controllers) sql with
    | none =>
      simp only [State.sql, accepts, run, Option.isSome_none, if_true, Bool.false_eq_true, if_false]
      exact ⟨consistent.revision, trivial⟩
    | some result =>
      have replayed : Received.replay controllers (state.remote controllers) (.statement sql) =
          result := by rw [Received.replay, run, Option.getD_some]
      simp only [State.sql, accepts, run, Option.isSome_some, if_true, Bool.false_eq_true,
        if_false] at revision ⊢
      refine ⟨revision, fun whole => ?_⟩
      exact replayed.trans (Option.some.inj (run.symm.trans (holds whole)))
  · simp only [State.sql, accepts, Bool.false_eq_true, if_false]
    exact .of_not_whole consistent.revision (not_whole_of_gap rfl)

theorem Consistent.callRemote {delivery : Delivery}
    (taken : Failover.callRemote controllers state delivery = some next) :
    Consistent controllers next := by
  simp only [Failover.callRemote] at taken
  split at taken
  · rename_i sql named
    cases delivery with cases taken
    | answered => exact consistent.answered stable named
    | replyLost =>
      have revision := (revision_sql stable state sql).trans consistent.revision
      exact ⟨revision.trans
        (congrArg controllers.revision (database_sql controllers state sql).symm), trivial⟩
    | delayed | undelivered => exact ⟨consistent.revision, trivial⟩
  · cases taken

omit stable in
theorem Consistent.remoteStatus {answered : Bool}
    (taken : Failover.remoteStatus state answered = some next) :
    Consistent controllers next := by
  have holds := consistent.holds
  simp only [Failover.remoteStatus] at taken
  split at taken
  · rename_i named
    rw [named] at holds
    split_ifs at taken <;> cases taken
    · exact ⟨consistent.revision, fun whole => absurd whole holds⟩
    · exact ⟨consistent.revision, holds⟩
    · exact .of_not_whole consistent.revision (not_whole_of_gap rfl)
  · cases taken

omit stable in
theorem Consistent.copied :
    Received.replay controllers (state.remote controllers) (.database state.database) =
      state.database := by
  rw [Received.replay, if_neg (not_not_intro consistent.revision)]

omit stable in
theorem Consistent.send {sending : Sending}
    (taken : Failover.send state sending = some next) : Consistent controllers next := by
  have holds := consistent.holds
  have copied := consistent.copied
  simp only [Failover.send] at taken
  split at taken
  · rename_i bySetFailure named
    rw [named] at holds
    cases sending with cases taken
    | done | replyLost => exact ⟨congrArg controllers.revision copied, fun _ => copied⟩
    | undelivered =>
      refine ⟨consistent.revision, fun whole => ?_⟩
      cases bySetFailure with
      | false => exact holds whole
      | true => exact absurd whole holds
  · cases taken

omit stable in
theorem Consistent.retry {index : Nat}
    (taken : Failover.retry state index = some next) : Consistent controllers next := by
  have holds := consistent.holds
  simp only [Failover.retry] at taken
  split at taken
  iterate 3 split_ifs at taken <;> cases taken <;> exact ⟨consistent.revision, holds⟩
  · cases taken
    exact .of_not_whole consistent.revision (not_whole_of_gap rfl)
  · split at taken <;> cases taken
    rename_i named
    rw [named] at holds
    exact ⟨consistent.revision, holds⟩
  · cases taken

theorem Consistent.arrive {index : Nat}
    (taken : Failover.arrive controllers state index = some next) :
    Consistent controllers next := by
  obtain ⟨sql, -, rfl⟩ := Option.map_eq_some_iff.1 taken
  refine .of_not_whole ?_ (not_whole_of_gap rfl)
  have revision := revision_sql stable { state with inFlight := state.inFlight.eraseIdx index } sql
  have database := database_sql controllers
    { state with inFlight := state.inFlight.eraseIdx index } sql
  exact (revision.trans consistent.revision).trans (congrArg controllers.revision database.symm)

theorem Consistent.write {sql : Statement} {haSync : Bool}
    (taken : step controllers state (.write sql haSync) = some next) :
    Consistent controllers next := by
  have holds := consistent.holds
  simp only [step] at taken
  split at taken
  · rename_i named
    rw [named] at holds
    split at taken <;> cases taken
    · exact consistent
    · rename_i database run
      refine ⟨consistent.revision.trans (stable _ _ _ run).symm, fun whole => ?_⟩
      exact (congrArg (controllers.execute · sql) (holds whole)).trans run
  · cases taken

omit stable in
theorem Consistent.startSend
    (taken : step controllers state .startSend = some next) : Consistent controllers next := by
  have holds := consistent.holds
  simp only [step] at taken
  split at taken <;> cases taken
  rename_i named
  rw [named] at holds
  exact ⟨consistent.revision, holds⟩

omit stable in
theorem Consistent.startForced (taken : step controllers state .startForced = some next) :
    Consistent controllers next := by
  simp only [step] at taken
  split at taken <;> cases taken
  exact ⟨consistent.revision, trivial⟩

theorem Consistent.step {label : Label Statement}
    (taken : Failover.step controllers state label = some next) :
    Consistent controllers next := by
  cases label with
  | setLicensed | setInProgress | setStatus | setRemoteStatus =>
    cases taken
    exact ⟨consistent.revision, consistent.holds⟩
  | write sql haSync => exact consistent.write stable taken
  | startSend => exact consistent.startSend taken
  | forceSend =>
    simp only [Failover.step] at taken
    split_ifs at taken <;> cases taken
    · exact ⟨consistent.revision, consistent.holds⟩
    · exact consistent
  | startForced => exact consistent.startForced taken
  | check => exact consistent.check taken
  | callRemote delivery => exact consistent.callRemote stable taken
  | remoteStatus answered => exact consistent.remoteStatus taken
  | send sending => exact consistent.send taken
  | retry index => exact consistent.retry taken
  | arrive index => exact consistent.arrive stable taken

end Invariant

def start (database : Database) : State Statement Database where
  database := database
  remoteInitial := database

/-- In every run, when no write is being replicated, the failure flag is clear and there was
no gap since the last copy, the database of the other controller is that of the master. -/
theorem remote_eq_database_of_no_gap (stable : controllers.Stable) {database : Database}
    {state : State Statement Database}
    (reach : Reach (step controllers) Always (start database) state)
    (idle : state.thread = .idle) (clear : state.failure = false) (noGap : state.gap = false) :
    state.remote controllers = state.database := by
  have init : Consistent controllers (start database) := ⟨rfl, fun _ => rfl⟩
  have consistent : Consistent controllers state := reach.invariant init
    fun _ _ _ consistent _ stepped => consistent.step stable stepped
  have holds := consistent.holds
  rw [idle] at holds
  exact holds ⟨clear, noGap⟩

section Example

def counting : Controllers Unit Nat where
  execute database _ := some (database + 1)
  revision _ := "1"
  version := "25.10"
  remoteVersion := "25.10"

/-- A write that does not reach the other controller is covered by a copy, and the next one is
replicated. -/
theorem remote_eq_database_of_no_gap_counting :
    ∃ state : State Unit Nat, Reach (step counting) Always (start 0) state ∧
      state.database = 2 ∧ state.remote counting = state.database := by
  obtain ⟨state, reach, database, idle, clear, noGap⟩ : ∃ state, Reach (step counting) Always
      (start 0) state ∧
      state.database = 2 ∧ state.thread = .idle ∧ state.failure = false ∧ state.gap = false :=
    exists_reach [.write () true, .check, .check, .check, .callRemote .undelivered, .check,
      .remoteStatus true, .send .done, .write () true, .check, .check, .check,
      .callRemote .answered] ⟨_, rfl, rfl, rfl, rfl, rfl⟩
  exact ⟨state, reach, database, remote_eq_database_of_no_gap counting
    (fun _ _ _ _ => rfl) reach idle clear noGap⟩

def forwarded (delivery : Delivery) : List (Label Unit) :=
  [.write () true, .check, .check, .check, .callRemote delivery]

/-- A write without `ha_sync`, without a licence, or during a failover is skipped; one that the
other controller drops is taken as replicated; the flag is cleared when the other controller is not
BACKUP, or the local one no longer MASTER; and a statement arrives after the copy. -/
def lostWrites : List (List (Label Unit)) :=
  [[.write () false, .check],
    [.setLicensed false, .write () true, .check, .setLicensed true],
    [.setInProgress true, .write () true, .check, .check, .check, .setInProgress false],
    .setRemoteStatus .importing :: forwarded .answered ++ [.setRemoteStatus .backup],
    .setRemoteStatus .importing :: forwarded .undelivered ++
      [.check, .remoteStatus true, .setRemoteStatus .backup],
    forwarded .undelivered ++ [.check, .remoteStatus false, .retry 0, .retry 0,
      .setStatus .backup, .retry 0, .retry 0],
    forwarded .delayed ++ [.check, .remoteStatus true, .send .done, .arrive 0]]

/-- The flag is clear after each of these runs, and after a write that a controller of another
version receives. -/
theorem write_lost_in_progress :
    (∀ labels ∈ lostWrites, ∃ state : State Unit Nat,
      exec (step counting) Always (start 0) labels = some state ∧
      state.thread = .idle ∧ state.failure = false ∧ state.inProgress = false ∧
      state.remoteStatus = .backup ∧ state.remote counting ≠ state.database) ∧
    ∃ state : State Unit Nat,
      Reach (step { counting with remoteVersion := "25.04" }) Always (start 0) state ∧
      state.thread = .idle ∧ state.failure = false ∧
      state.remote { counting with remoteVersion := "25.04" } ≠ state.database := by
  constructor
  · intro labels mem
    simp only [lostWrites, List.mem_cons, List.not_mem_nil, or_false] at mem
    rcases mem with rfl | rfl | rfl | rfl | rfl | rfl | rfl
    all_goals exact ⟨_, rfl, rfl, rfl, rfl, rfl, by decide⟩
  · exact exists_reach (forwarded .answered) ⟨_, rfl, rfl, rfl, by decide⟩

end Example

end TruenasMiddleware.Failover
