import TruenasMiddleware.Foundation.Transition

/-! `plugins/failover_/event.py`: how a failover event becomes a job. `event` reads the pools,
ignores the event or adds `vrrp_master` or `vrrp_backup` to the queue of the lock `vrrp_event`.
Jobs of one lock run one at a time, in the order in which they were added. Failover is enabled,
the interface is critical and alone in its group, and no step of a job raises. -/

namespace TruenasMiddleware.Failover.Events

open Transition List

inductive Event
  | master
  | backup
  | forcetakeover
  deriving DecidableEq

inductive Role
  | master
  | backup
  deriving DecidableEq

def Event.role : Event → Role
  | .master => .master
  | .backup => .backup
  | .forcetakeover => .master

structure Job where
  event : Event
  /-- Which pools were imported when `generate_failover_data` read `fobj['volumes']`. -/
  volumes : List Bool

inductive Stage
  | generated
  | checked
  | validated

structure Call extends Job where
  stage : Stage

structure Current where
  job : Job
  /-- Its state is `RUNNING`; the scheduler takes a job off the queue before that. -/
  running : Bool
  remaining : List Nat

structure State where
  /-- For each pool whether it is imported, that is, not `OFFLINE`. -/
  pools : List Bool
  role : Role
  call : Option Call
  waiting : List Job
  current : Option Current
  last : Option Event

inductive Label
  | receive (event : Event)
  /-- The next check of `_event`, or the call of the job after the last one. -/
  | proceed
  | take
  | run
  | advance
  | finish

def lockQueueSize : Nat := 5

variable (state : State)

/-- "zpools are already imported". -/
def State.alreadyImported (call : Call) : Bool :=
  decide (call.event = .master) && !call.volumes.isEmpty && state.pools.all id

/-- A duplicate for `validate`: a job for the same event whose state is `RUNNING`. -/
def State.duplicate (call : Call) : Bool :=
  state.current.any fun current => current.running && decide (current.job.event = call.event)

/-- `JobsQueue.add` returns a job that waits already in place of a new one. -/
def State.full : Bool :=
  decide (lockQueueSize ≤ state.waiting.length)

def State.drops (call : Call) : Bool :=
  match call.stage with
  | .generated => state.alreadyImported call
  | .checked => state.duplicate call
  | .validated => state.full

def State.receive (event : Event) : State :=
  { state with
    call := some { event, volumes := state.pools, stage := .generated }
    last := some event }

def State.proceed (call : Call) : State :=
  if state.drops call then { state with call := none }
  else
    match call.stage with
    | .generated => { state with call := some { call with stage := .checked } }
    | .checked => { state with call := some { call with stage := .validated } }
    | .validated => { state with call := none, waiting := state.waiting ++ [call.toJob] }

/-- `vrrp_master` imports every pool. `_export_zpools` exports those that were not `OFFLINE` when
the event was received. -/
def Job.targets (job : Job) : List Nat :=
  match job.event.role with
  | .master => range job.volumes.length
  | .backup => (range job.volumes.length).filter fun pool => job.volumes.getD pool false

def State.advance (current : Current) (pool : Nat) (rest : List Nat) : State :=
  { state with
    pools := state.pools.set pool (decide (current.job.event.role = .master))
    current := some { current with remaining := rest } }

/-- One step of a call of `event`, of the scheduler or of the job that holds the lock. Events are
received one after the other, as `VrrpEventThread` handles them. -/
def step : Label → Option State
  | .receive event => if state.call.isNone then some (state.receive event) else none
  | .proceed => state.call.map state.proceed
  | .take =>
    match state.current, state.waiting with
    | none, job :: rest =>
      some { state with
        waiting := rest
        current := some { job, running := false, remaining := job.targets } }
    | _, _ => none
  | .run =>
    state.current.map fun current =>
      { state with current := some { current with running := true } }
  | .advance =>
    match state.current with
    | some ⟨job, true, pool :: rest⟩ => some (state.advance ⟨job, true, pool :: rest⟩ pool rest)
    | _ => none
  | .finish =>
    match state.current with
    | some ⟨job, true, []⟩ => some { state with current := none, role := job.event.role }
    | _ => none

def start (role : Role) (pools : List Bool) : State where
  pools := pools
  role := role
  call := none
  waiting := []
  current := none
  last := none

def State.idle : Bool :=
  state.call.isNone && state.waiting.isEmpty && state.current.isNone

/-- The jobs that have not finished, in the order in which they were added. -/
def State.jobs : List Job :=
  (state.current.map Current.job).toList ++ state.waiting

def State.heading : Role :=
  ((state.jobs.getLast?).map fun job => job.event.role).getD state.role

/-- The event is handled whatever happens until `_event` is through with it: fewer than five jobs
wait, no unfinished job takes its role, and a `MASTER` finds a pool that is not imported. -/
def Clear (event : Event) (volumes : List Bool) : Prop :=
  state.waiting.length < 5 ∧ (∀ job ∈ state.jobs, job.event.role ≠ event.role) ∧
    (event = .master → volumes = [] ∨ false ∈ state.pools)

instance (event : Event) (volumes : List Bool) : Decidable (Clear state event volumes) :=
  inferInstanceAs (Decidable (_ ∧ _ ∧ _))

/-- An event comes when the last unfinished job takes its role, or the controller has it and no
job is left; or it comes when nothing can make `_event` drop it. -/
def Timely : Label → Prop
  | .receive event => state.heading = event.role ∨ Clear state event state.pools
  | _ => True

instance : (label : Label) → Decidable (Timely state label)
  | .receive _ => inferInstanceAs (Decidable (_ ∨ _))
  | .proceed | .take | .run | .advance | .finish => .isTrue trivial

/-- What is left to do leads to the role of the last event: the jobs do, once `_event` is through
with it, and until then the call is about it and will not be dropped unless they do. -/
structure Inv : Prop where
  settled : state.call = none → ∀ event ∈ state.last, state.heading = event.role
  calling : ∀ call ∈ state.call, state.last = some call.event ∧
    (state.heading = call.event.role ∨ Clear state call.event call.volumes)

variable {state next : State}

theorem Clear.not_drops {call : Call} (clear : Clear state call.event call.volumes) :
    state.drops call = false := by
  obtain ⟨room, other, offline⟩ := clear
  rw [State.drops]
  cases call.stage with
  | generated =>
    refine Bool.eq_false_iff.mpr fun imported => ?_
    simp only [State.alreadyImported, Bool.and_eq_true, decide_eq_true_eq, Bool.not_eq_true',
      isEmpty_eq_false_iff, all_eq_true, id_eq] at imported
    obtain ⟨⟨master, some⟩, all⟩ := imported
    exact absurd (all false ((offline master).resolve_left some)) Bool.false_ne_true
  | checked =>
    refine Bool.eq_false_iff.mpr fun duplicate => ?_
    obtain ⟨current, held, same⟩ := (Option.any_eq_true _ _).mp duplicate
    simp only [Bool.and_eq_true, decide_eq_true_eq] at same
    exact other current.job (by simp [State.jobs, held]) (congrArg Event.role same.2)
  | validated => exact decide_eq_false (Nat.not_le.mpr room)

/-- A step of a job keeps the event from being dropped: the jobs left are for the other role, and
only those for `MASTER` import pools. -/
theorem Clear.of_jobs {event : Event} {volumes : List Bool} (clear : Clear state event volumes)
    (waiting : next.waiting.length ≤ state.waiting.length) (jobs : next.jobs ⊆ state.jobs)
    (pools : event = .master → false ∈ state.pools → false ∈ next.pools) :
    Clear next event volumes := by
  obtain ⟨room, other, offline⟩ := clear
  refine ⟨Nat.lt_of_le_of_lt waiting room, fun job mem => other job (jobs mem), fun master => ?_⟩
  exact (offline master).imp_right (pools master)

theorem Inv.start (role : Role) (pools : List Bool) : Inv (start role pools) where
  settled _ event received := by cases received
  calling call called := by cases called

theorem Inv.receive {event : Event} (timely : Timely state (.receive event)) :
    Inv (state.receive event) where
  settled idle := by cases idle
  calling call called := by
    cases called
    exact ⟨rfl, timely⟩

/-- A step of `_event`: an event that is dropped has the role that the jobs end in, and one that is
not ends as the last job of the queue. -/
theorem Inv.proceed (inv : Inv state) {call : Call} (called : state.call = some call) :
    Inv (state.proceed call) := by
  obtain ⟨received, timely⟩ := inv.calling call called
  by_cases drops : state.drops call = true
  · have heading := timely.resolve_right fun clear => by simp [clear.not_drops] at drops
    rw [State.proceed, if_pos drops]
    refine ⟨fun _ event last => ?_, fun _ absent => by cases absent⟩
    cases received.symm.trans last
    exact heading
  · rw [State.proceed, if_neg drops]
    cases call.stage with
    | generated | checked =>
      refine ⟨fun idle => (by cases idle), fun next eq => ?_⟩
      cases eq
      exact ⟨received, timely⟩
    | validated =>
      refine ⟨fun _ event last => ?_, fun _ absent => by cases absent⟩
      cases received.symm.trans last
      simp [State.heading, State.jobs]

/-- A step of the scheduler or of the job that holds the lock. -/
theorem Inv.of_jobs (inv : Inv state) (call : next.call = state.call)
    (last : next.last = state.last) (heading : next.heading = state.heading)
    (waiting : next.waiting.length ≤ state.waiting.length) (jobs : next.jobs ⊆ state.jobs)
    (pools : (∀ job ∈ state.jobs, job.event.role ≠ .master) → false ∈ state.pools →
      false ∈ next.pools) : Inv next where
  settled idle event received := by
    rw [heading]
    exact inv.settled (call ▸ idle) event (last ▸ received)
  calling called same := by
    obtain ⟨received, timely⟩ := inv.calling called (call ▸ same)
    rw [last, heading]
    refine ⟨received, timely.imp_right fun clear => clear.of_jobs waiting jobs fun master => ?_⟩
    have role : called.event.role = .master := by rw [master]; rfl
    exact pools fun job mem => role ▸ clear.2.1 job mem

theorem Inv.of_same_jobs (inv : Inv state) (call : next.call = state.call)
    (last : next.last = state.last) (role : next.role = state.role)
    (waiting : next.waiting.length ≤ state.waiting.length) (jobs : next.jobs = state.jobs)
    (pools : (∀ job ∈ state.jobs, job.event.role ≠ .master) → false ∈ state.pools →
      false ∈ next.pools) : Inv next := by
  refine inv.of_jobs call last ?_ waiting (fun _ => (jobs ▸ ·)) pools
  rw [State.heading, jobs, role, State.heading]

theorem false_mem_set {pools : List Bool} (pool : Nat) (offline : false ∈ pools) :
    false ∈ pools.set pool false := by
  obtain ⟨i, bound, here⟩ := mem_iff_getElem.mp offline
  refine mem_iff_getElem.mpr ⟨i, by simpa using bound, ?_⟩
  rw [getElem_set]
  split
  · rfl
  · exact here

theorem Inv.step {label : Label} (inv : Inv state) (timely : Timely state label)
    (taken : step state label = some next) : Inv next := by
  cases label with simp only [Events.step] at taken
  | receive event =>
    split at taken <;> cases taken
    exact Inv.receive timely
  | proceed =>
    obtain ⟨call, called, rfl⟩ := Option.map_eq_some_iff.mp taken
    exact inv.proceed called
  | take =>
    split at taken <;> cases taken
    rename_i job rest free waiting
    refine inv.of_same_jobs rfl rfl rfl (by simp [waiting]) ?_ fun _ => id
    simp [State.jobs, free, waiting]
  | run =>
    obtain ⟨current, held, rfl⟩ := Option.map_eq_some_iff.mp taken
    refine inv.of_same_jobs rfl rfl rfl (Nat.le_refl _) ?_ fun _ => id
    simp [State.jobs, held]
  | advance =>
    split at taken <;> cases taken
    rename_i job pool rest held
    refine inv.of_same_jobs rfl rfl rfl (Nat.le_refl _) (by simp [State.jobs, State.advance, held])
      fun other offline => ?_
    have exports : job.event.role ≠ .master := other job (by simp [State.jobs, held])
    simp only [State.advance, exports, decide_false]
    exact false_mem_set pool offline
  | finish =>
    split at taken <;> cases taken
    rename_i job held
    have jobs : state.jobs = job :: state.waiting := by simp [State.jobs, held]
    refine inv.of_jobs rfl rfl ?_ (Nat.le_refl _) ?_ fun _ => id
    · rw [State.heading, State.heading, jobs, getLast?_cons, State.jobs]
      cases last : state.waiting.getLast? <;> simp [last]
    · rw [jobs]
      exact subset_cons_self job state.waiting

/-- In every run in which the events come in time: once no call is being handled and all jobs have
finished, the role that the controller took last is the role of the last event. -/
theorem last_event_wins {role : Role} {pools : List Bool} {state : State}
    (reached : Reach step Timely (start role pools) state) (idle : state.idle = true)
    {event : Event} (last : state.last = some event) : state.role = event.role := by
  have inv : Inv state := reached.invariant (Inv.start role pools)
    fun _ _ _ inv timely taken => inv.step timely taken
  obtain ⟨⟨returned, waiting⟩, free⟩ : (state.call = none ∧ state.waiting = []) ∧
      state.current = none := by
    simpa [State.idle] using idle
  have heading : state.heading = state.role := by simp [State.heading, State.jobs, waiting, free]
  rw [← heading]
  exact inv.settled returned event last

def accept (event : Event) : List Label :=
  [.receive event, .proceed, .proceed, .proceed]

/-- A standby controller becomes the master, ignores a second `MASTER` while it does, and goes back
to standby. -/
theorem last_event_wins_standby :
    ∃ state, Reach step Timely (start .backup [false]) state ∧ state.idle = true ∧
      state.pools = [false] ∧ state.role = .backup := by
  exact exists_reach_of_run (P := fun state => state.idle = true ∧ state.last = some .backup ∧
      state.pools = [false])
    (accept .master ++ [.take, .run, .receive .master, .proceed, .proceed, .advance, .finish] ++
      accept .backup ++ [.take, .run, .advance, .finish])
    (by decide +kernel) fun state reached ⟨idle, last, pools⟩ =>
      ⟨idle, pools, last_event_wins reached idle last⟩

/-- The last event is lost. A `MASTER` is taken for a duplicate of the job that runs, though a
`BACKUP` waits behind it; a `MASTER` finds the pools imported which the job for a `BACKUP` is about
to export, or which it did not export because they were `OFFLINE` when the event came; and a
`MASTER` is given the last of five jobs for `BACKUP` that wait. -/
theorem last_event_lost :
    (∃ state, Reach step Always (start .backup [false]) state ∧ state.idle = true ∧
      state.last = some .master ∧ state.role = .backup) ∧
    (∃ state, Reach step Always (start .master [true]) state ∧ state.idle = true ∧
      state.last = some .master ∧ state.role = .backup) ∧
    (∃ state, Reach step Always (start .backup [false]) state ∧ state.idle = true ∧
      state.last = some .master ∧ state.role = .backup ∧ state.pools = [true]) ∧
    ∃ state, Reach step Always (start .backup [false]) state ∧ state.idle = true ∧
      state.last = some .master ∧ state.role = .backup ∧ state.pools = [false] := by
  refine ⟨?_, ?_, ?_, ?_⟩
  · apply exists_reach_of_exec (accept .master ++ [.take, .run] ++ accept .backup ++
      [.receive .master, .proceed, .proceed, .advance, .finish, .take, .run, .finish])
    decide +kernel
  · apply exists_reach_of_exec
      (accept .backup ++ [.take, .run, .receive .master, .proceed, .advance, .finish])
    decide +kernel
  · apply exists_reach_of_exec (accept .master ++ accept .backup ++
      [.take, .run, .advance, .finish, .take, .run, .finish, .receive .master, .proceed])
    decide +kernel
  · apply exists_reach_of_exec (accept .backup ++ [.take] ++
      (replicate 5 (accept .backup)).flatten ++ accept .master ++ [.run, .finish] ++
      (replicate 5 [.take, .run, .finish]).flatten)
    decide +kernel

end TruenasMiddleware.Failover.Events
