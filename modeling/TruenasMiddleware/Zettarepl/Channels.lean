import TruenasMiddleware.Zettarepl.Runs
import Mathlib.Data.List.Nodup
import Mathlib.Data.List.Perm.Subperm

/-! Which runs of the system let every job learn the outcome of the run it asked for. A job is told
by a loop over the channels of its task, so an outcome is lost when the loop goes by while the job
has no channel, when the loop never takes place, or when a channel is removed under it. `Sound`
excludes these, and `Inv` is what the remaining runs keep of jobs, channels and messages. -/

namespace TruenasMiddleware.Zettarepl

open Transition List Function

/-- The message is for the task of the job. If it ends the wait, it is the outcome of the run that
serves the job, or the error of an abnormal termination. -/
def Message.Fits (message : Message) (job : Job) : Prop :=
  message.task = job.task ∧ (message.terminal = true → message.run = job.run ∨ message.run = none)

def Task.stored : Task → Bool
  | .snapshot _ | .replication _ => true
  | .onetime _ => false

def Message.Ends (message : Message) (job : Job) : Prop :=
  message.terminal = true ∧ message.task = job.task

instance (message : Message) (job : Job) : Decidable (message.Ends job) :=
  inferInstanceAs (Decidable (_ ∧ _))

def Job.Got (job : Job) (message : Message) : Prop :=
  message ∈ job.inbox ∨ job.phase = .returned message

def Job.notified (job : Job) : Bool :=
  job.inbox.any Message.terminal

variable (state : State)

def State.deliveries : List Delivery :=
  state.reader.toList ++ (state.joiner.bind Joiner.delivery).toList

/-- A loop tells the jobs of the task that their wait is over. -/
def State.telling (task : Task) : Bool :=
  state.deliveries.any fun delivery =>
    delivery.message.terminal && decide (delivery.message.task = task)

def State.AllUnfinished (holds : Job → Prop) : Prop :=
  ∀ number < state.next, ∀ job ∈ state.jobs number, job.finished = false → holds job

instance (holds : Job → Prop) [DecidablePred holds] : Decidable (state.AllUnfinished holds) :=
  inferInstanceAs (Decidable (∀ number < state.next, _))

/-- The run that the message is about is going on, or its outcome has been posted. -/
def State.Followed (message : Message) : Prop :=
  (∃ process ∈ state.process, ∃ run ∈ message.run, (message.task, run) ∈ process.runs) ∨
    ∃ outcome ∈ state.observer, outcome.terminal = true ∧ outcome.task = message.task

/-- The message may be read: the jobs that wait for an outcome have their channels and have asked
for this run, and a job is started for a task of the database only, whose outcome is to come. -/
def State.Readable (message : Message) : Prop :=
  (message.terminal = true → state.AllUnfinished fun job =>
      job.task = message.task → job.phase = .waiting ∧ job.run = message.run) ∧
  (message.kind = .start → message.task.isReplication = true → state.channels message.task = [] →
      message.task.stored = true ∧ state.Followed message)

def Sound : Label → Prop
  | .request _ => state.process.isSome = true
  | .register number => ∀ job ∈ state.jobs number, state.telling job.task = false
  | .receive number =>
    ∀ job ∈ state.jobs number, (job.inbox.head?.any Message.terminal) = true →
      state.telling job.task = false
  | .read raises => raises = false ∧ ∀ message ∈ state.observer.head?, state.Readable message
  | .stop => state.AllUnfinished fun _ => False
  | .launch => state.died = false ∧ state.joiner.isNone = true
  | .crash startupError => startupError = true → state.AllUnfinished fun _ => False
  | .joinBegin raises =>
    raises = false ∧ state.AllUnfinished fun job =>
      job.notified = true ∨ (∃ message ∈ state.observer, message.Ends job) ∨
        job.phase = .waiting ∧ job.task ∈ state.active
  | .joinTask raises => raises = false
  | _ => True

theorem State.followed_iff (message : Message) : state.Followed message ↔
    ((state.process.any fun process => message.run.any fun run => process.runs.any
      fun started => decide (started = (message.task, run))) || state.observer.any fun outcome =>
      outcome.terminal && decide (outcome.task = message.task)) = true := by
  simp only [State.Followed, Bool.or_eq_true, Option.any_eq_true, any_eq_true,
    Bool.and_eq_true, decide_eq_true_eq, exists_eq_right]
  rfl

instance (message : Message) : Decidable (state.Followed message) :=
  @decidable_of_iff _ _ (state.followed_iff message).symm (instDecidableEqBool _ true)

instance (message : Message) : Decidable (state.Readable message) :=
  inferInstanceAs (Decidable ((_ → _) ∧ (_ → _ → _ → _ ∧ _)))

instance (label : Label) : Decidable (Sound state label) :=
  match label with
  | .request _ => inferInstanceAs (Decidable (_ = true))
  | .register number => inferInstanceAs (Decidable (∀ job ∈ state.jobs number, _))
  | .receive number => inferInstanceAs (Decidable (∀ job ∈ state.jobs number, _ → _))
  | .read _ => inferInstanceAs (Decidable (_ ∧ ∀ message ∈ state.observer.head?, _))
  | .stop => inferInstanceAs (Decidable (state.AllUnfinished _))
  | .launch => inferInstanceAs (Decidable (_ ∧ _))
  | .crash _ => inferInstanceAs (Decidable (_ → _))
  | .joinBegin _ => inferInstanceAs (Decidable (_ ∧ state.AllUnfinished _))
  | .joinTask _ => inferInstanceAs (Decidable (_ = false))
  | .command _ | .begin _ | .progress _ _ | .finish _ _ _ | .deliver | .report _
  | .joinDeliver | .joinEnd _ => .isTrue trivial

structure Wired : Prop where
  fresh : ∀ number, state.next ≤ number → state.jobs number = none
  registered : ∀ {task number}, number ∈ state.channels task →
    ∃ job, state.jobs number = some job ∧ job.task = task ∧ job.phase = .waiting
  listening : ∀ {number job}, state.jobs number = some job → job.phase = .waiting →
    number ∈ state.channels job.task
  nodup : ∀ task, (state.channels task).Nodup

def State.unserved : List (Nat × Task) :=
  match state.process with
  | some process => process.commands ++ process.accepted
  | none => []

structure Inv : Prop extends Wired state where
  unserved : ∀ entry ∈ state.unserved,
    ∃ job, state.jobs entry.1 = some job ∧ job.task = entry.2 ∧ job.run = none
  once : (state.unserved.map Prod.fst).Nodup
  delivering : ∀ delivery ∈ state.deliveries, ∀ number ∈ state.channels delivery.message.task,
    ∀ job, state.jobs number = some job → delivery.message.Fits job
  fits : ∀ {number job}, state.jobs number = some job →
    ∀ message, job.Got message → message.Fits job
  started : ∀ entry ∈ state.started, entry.1 = entry.2

theorem Inv.start : Inv start where
  fresh _ _ := rfl
  registered member := by cases member
  listening found := by cases found
  nodup _ := nodup_nil
  unserved _ member := by cases member
  once := nodup_nil
  delivering _ member := by cases member
  fits found := by cases found
  started _ member := by cases member

variable {state next : State} {number : Nat} {job : Job} {task other : Task} {message : Message}

/-! ### Names of tasks -/

theorem parseInt_toDigits (id : Nat) : parseInt (Nat.toDigits 10 id) = some id := by
  have digits : (Nat.toDigits 10 id).all Char.isDigit = true :=
    all_eq_true.mpr fun c mem => Nat.isDigit_of_mem_toDigits (by decide) (by decide) mem
  have nonempty : (Nat.toDigits 10 id).isEmpty = false := by
    rw [isEmpty_eq_false_iff]
    exact Nat.toDigits_ne_nil
  simp [parseInt, digits, nonempty]

theorem fake_of_stored (replication : task.isReplication = true) (stored : task.stored = true) :
    task.fake = some task := by
  cases task with
  | snapshot id => cases replication
  | onetime id => cases stored
  | replication id => simp [Task.fake, Task.name, parseInt_toDigits]

/-! ### Jobs -/

theorem modify_jobs_eq_some (state : State) (which : Nat → Bool) (change : Job → Job) :
    (state.modify which change).jobs number = some job ↔
      ∃ old, state.jobs number = some old ∧ (if which number then change old else old) = job := by
  cases picked : which number <;> simp [State.modify, picked]

theorem modify_one {other : Nat} {new : Job} (found : state.jobs number = some job)
    (change : Job → Job) : (state.modify (· == number) change).jobs other = some new ↔
      other = number ∧ change job = new ∨ other ≠ number ∧ state.jobs other = some new := by
  rw [modify_jobs_eq_some]
  by_cases eq : other = number
  · simp [eq, found]
  · simp [eq]

theorem addJob_jobs_eq_some (wired : Wired state) {new : Job} :
    (state.addJob new).jobs number = some job ↔
      state.jobs number = some job ∨ number = state.next ∧ new = job := by
  by_cases eq : number = state.next
  · subst eq
    simp [State.addJob, wired.fresh _ (Nat.le_refl _)]
  · simp [State.addJob, eq]

variable {delivery : Delivery} {process : Process}

theorem mem_deliveries : delivery ∈ state.deliveries ↔ state.reader = some delivery ∨
        ∃ joiner, state.joiner = some joiner ∧ joiner.delivery = some delivery := by
  simp [State.deliveries, Option.bind_eq_some_iff]

theorem Wired.lt_next (wired : Wired state) (found : state.jobs number = some job) :
    number < state.next := by
  by_contra ahead
  rw [wired.fresh number (Nat.le_of_not_lt ahead)] at found
  cases found

theorem State.AllUnfinished.of_job {holds : Job → Prop} (all : state.AllUnfinished holds)
    (wired : Wired state) (found : state.jobs number = some job)
    (unfinished : job.finished = false) :
    holds job :=
  all number (wired.lt_next found) job found unfinished

theorem unfinished_of_waiting (waiting : job.phase = .waiting) : job.finished = false := by
  simp [Job.finished, waiting]

theorem not_telling (quiet : state.telling task = false) (mem : delivery ∈ state.deliveries)
    (terminal : delivery.message.terminal = true) :
    delivery.message.task ≠ task := by
  intro eq
  have told : state.telling task = true :=
    any_eq_true.mpr ⟨delivery, mem, by simp [terminal, eq]⟩
  rw [quiet] at told
  cases told

theorem Message.Fits.serve (fits : message.Fits job) (unserved : job.run = none)
    (run : Option Nat) : message.Fits { job with run } := by
  refine ⟨fits.1, fun terminal => .inr ?_⟩
  rcases fits.2 terminal with eq | absent
  · exact eq.trans unserved
  · exact absent

theorem Wired.modify (wired : Wired state) (which : Nat → Bool) (change : Job → Job)
    (keepsTask : ∀ job, (change job).task = job.task)
    (keepsPhase : ∀ job, (change job).phase = job.phase) :
    Wired (state.modify which change) where
  fresh number ahead := by simp [State.modify, wired.fresh number ahead]
  registered {task number} member := by
    obtain ⟨job, found, ofTask, waiting⟩ := wired.registered member
    refine ⟨_, (modify_jobs_eq_some state which change).mpr ⟨job, found, rfl⟩, ?_, ?_⟩
    · split
      · exact (keepsTask job).trans ofTask
      · exact ofTask
    · split
      · exact (keepsPhase job).trans waiting
      · exact waiting
  listening {number job} found waiting := by
    obtain ⟨old, before, rfl⟩ := (modify_jobs_eq_some state which change).mp found
    split at waiting
    · rename_i picked
      rw [if_pos picked, keepsTask]
      exact wired.listening before ((keepsPhase old).symm.trans waiting)
    · rename_i other
      rw [if_neg other]
      exact wired.listening before waiting
  nodup := wired.nodup

theorem Wired.addJob (wired : Wired state) (new : Job) (queued : new.phase = .queued) :
    Wired (state.addJob new) where
  fresh number ahead := by
    have later : state.next + 1 ≤ number := ahead
    have different : number ≠ state.next := by omega
    simp only [State.addJob, update_of_ne different]
    exact wired.fresh number (by omega)
  registered member := by
    obtain ⟨job, found, place⟩ := wired.registered member
    exact ⟨job, (addJob_jobs_eq_some wired).mpr (.inl found), place⟩
  listening found waiting := by
    rcases (addJob_jobs_eq_some wired).mp found with found | ⟨_, rfl⟩
    · exact wired.listening found waiting
    · rw [queued] at waiting
      cases waiting
  nodup := wired.nodup

variable (inv : Inv state)
include inv

theorem Inv.frame (jobs : next.jobs = state.jobs)
    (counter : next.next = state.next) (channels : next.channels = state.channels)
    (started : next.started = state.started) (unserved : next.unserved.Subperm state.unserved)
    (deliveries : ∀ delivery ∈ next.deliveries, delivery ∈ state.deliveries ∨
      ∀ number ∈ state.channels delivery.message.task, ∀ job, state.jobs number = some job →
        delivery.message.Fits job) : Inv next where
  fresh := by
    rw [jobs, counter]
    exact inv.fresh
  registered := by
    rw [jobs, channels]
    exact inv.registered
  listening := by
    rw [jobs, channels]
    exact inv.listening
  nodup := by
    rw [channels]
    exact inv.nodup
  unserved entry member := by
    rw [jobs]
    exact inv.unserved entry (unserved.subset member)
  once := by
    obtain ⟨kept, eq, sub⟩ := unserved
    have distinct : (kept.map Prod.fst).Nodup := inv.once.sublist (sub.map _)
    exact (eq.map Prod.fst).nodup_iff.mp distinct
  delivering delivery member := by
    rw [jobs, channels]
    rcases deliveries delivery member with member | fits
    · exact inv.delivering delivery member
    · exact fits
  fits := by
    rw [jobs]
    exact inv.fits
  started := by
    rw [started]
    exact inv.started

theorem Inv.addJob (new : Job) (queued : new.phase = .queued)
    (empty : new.inbox = []) : Inv (state.addJob new) where
  toWired := inv.toWired.addJob new queued
  unserved entry member := by
    obtain ⟨job, found, rest⟩ := inv.unserved entry member
    exact ⟨job, (addJob_jobs_eq_some inv.toWired).mpr (.inl found), rest⟩
  once := inv.once
  delivering delivery member number registered job found := by
    obtain ⟨old, before, _⟩ := inv.registered registered
    rcases (addJob_jobs_eq_some inv.toWired).mp found with found | ⟨rfl, _⟩
    · exact inv.delivering delivery member number registered job found
    · exact absurd (inv.lt_next before) (Nat.lt_irrefl _)
  fits found message told := by
    rcases (addJob_jobs_eq_some inv.toWired).mp found with found | ⟨_, rfl⟩
    · exact inv.fits found message told
    · simp [Job.Got, queued, empty] at told
  started := inv.started

theorem Inv.request (task : Task) : Inv (state.request task) := by
  have added := inv.addJob { task, phase := .queued, inbox := [], run := none } rfl rfl
  cases alive : state.process with
  | none =>
    refine added.frame rfl rfl rfl rfl ?_ fun delivery mem => .inl mem
    simp [State.unserved, State.request, State.addJob, alive]
  | some process =>
    have before : state.unserved = process.commands ++ process.accepted := by
      simp [State.unserved, alive]
    have after : (state.request task).unserved.Perm ((state.next, task) :: state.unserved) := by
      rw [before]
      simp only [State.unserved, State.request, alive, Option.map_some, append_assoc,
        singleton_append]
      exact perm_middle
    exact
      { added with
        unserved := by
          intro entry mem
          rcases mem_cons.mp (after.subset mem) with rfl | mem
          · exact ⟨_, (addJob_jobs_eq_some inv.toWired).mpr (.inr ⟨rfl, rfl⟩), rfl, rfl⟩
          · exact added.unserved entry mem
        once := by
          rw [(after.map Prod.fst).nodup_iff, map_cons, nodup_cons]
          refine ⟨fun mem => ?_, inv.once⟩
          -- the number of the new job is fresh
          obtain ⟨entry, mem, eq⟩ := mem_map.mp mem
          obtain ⟨job, found, _⟩ := inv.unserved entry mem
          have earlier := inv.lt_next found
          simp only at eq
          omega }

theorem Inv.modify_unserved (which : Nat → Bool) (change : Job → Job)
    (keepsTask : ∀ job, (change job).task = job.task)
    (keepsRun : ∀ job, (change job).run = job.run) {entry : Nat × Task}
    (mem : entry ∈ state.unserved) :
    ∃ job, (state.modify which change).jobs entry.1 = some job ∧ job.task = entry.2 ∧
      job.run = none := by
  obtain ⟨job, found, ofTask, without⟩ := inv.unserved entry mem
  refine ⟨_, (modify_jobs_eq_some state which change).mpr ⟨job, found, rfl⟩, ?_, ?_⟩
  · split
    · exact (keepsTask job).trans ofTask
    · exact ofTask
  · split
    · exact (keepsRun job).trans without
    · exact without

theorem Inv.modify {which : Nat → Bool} {change : Job → Job}
    (keepsTask : ∀ job, (change job).task = job.task)
    (keepsPhase : ∀ job, (change job).phase = job.phase)
    (keepsRun : ∀ job, (change job).run = job.run)
    (fits : ∀ number job, which number = true → state.jobs number = some job →
      ∀ message ∈ (change job).inbox, message.Fits job) : Inv (state.modify which change) := by
  have keeps {message : Message} {job : Job} : message.Fits (change job) ↔ message.Fits job := by
    simp only [Message.Fits, keepsTask, keepsRun]
  refine
    { inv.toWired.modify which change keepsTask keepsPhase with
      unserved := fun _ mem => inv.modify_unserved which change keepsTask keepsRun mem
      once := inv.once, delivering := ?_, fits := ?_, started := inv.started }
  · intro delivery mem number channel job found
    obtain ⟨old, before, rfl⟩ := (modify_jobs_eq_some state which change).mp found
    have fit := inv.delivering delivery mem number channel old before
    split
    · exact keeps.mpr fit
    · exact fit
  · intro number job found message told
    obtain ⟨old, before, rfl⟩ := (modify_jobs_eq_some state which change).mp found
    by_cases picked : which number = true
    · rw [if_pos picked] at told ⊢
      rw [keeps]
      rcases told with mem | returned
      · exact fits number old picked before message mem
      · exact inv.fits before message (.inr ((keepsPhase old).symm.trans returned))
    · rw [if_neg picked] at told ⊢
      exact inv.fits before message told

omit inv in
theorem update_append_of_mem {channels : Task → List Nat} {entry : Nat}
    (mem : entry ∈ update channels task (channels task ++ [number]) other) :
    entry ∈ channels other ∨ entry = number ∧ other = task := by
  by_cases eq : other = task
  · subst eq
    simpa using mem
  · rw [update_of_ne eq] at mem
    exact .inl mem

theorem Inv.register (found : state.jobs number = some job)
    (queued : job.phase = .queued) (silent : state.telling job.task = false) :
    Inv (state.register number job.task) := by
  have apart {other : Task} {entry : Nat} (mem : entry ∈ state.channels other) :
      entry ≠ number := by
    rintro rfl
    obtain ⟨eq, again, _, waiting⟩ := inv.registered mem
    cases found.symm.trans again
    rw [queued] at waiting
    cases waiting
  have jobs {entry : Nat} {new : Job} : (state.register number job.task).jobs entry = some new ↔
      entry = number ∧ { job with phase := .waiting } = new ∨
        entry ≠ number ∧ state.jobs entry = some new := modify_one found _
  refine
    { fresh := fun entry ahead => ?_, registered := ?_, listening := ?_, nodup := ?_,
      unserved := fun _ mem => inv.modify_unserved (· == number)
        (fun old => { old with phase := .waiting }) (fun _ => rfl) (fun _ => rfl) mem
      once := inv.once, delivering := ?_, fits := ?_, started := inv.started }
  · simp [State.register, State.modify, inv.fresh entry ahead]
  · intro other entry mem
    rcases update_append_of_mem mem with mem | ⟨rfl, rfl⟩
    · obtain ⟨old, before, place⟩ := inv.registered mem
      exact ⟨old, jobs.mpr (.inr ⟨apart mem, before⟩), place⟩
    · exact ⟨_, jobs.mpr (.inl ⟨rfl, rfl⟩), rfl, rfl⟩
  · intro entry new after waiting
    rcases jobs.mp after with ⟨rfl, rfl⟩ | ⟨_, before⟩
    · simp [State.register]
    · have mem := inv.listening before waiting
      by_cases ofTask : new.task = job.task
      · simpa [State.register, ofTask] using Or.inl (ofTask ▸ mem)
      · simpa [State.register, update_of_ne ofTask] using mem
  · intro other
    by_cases eq : other = job.task
    · subst eq
      simpa [State.register, nodup_append] using ⟨inv.nodup _, fun entry mem => apart mem⟩
    · simpa [State.register, update_of_ne eq] using inv.nodup other
  · intro delivery mem entry channel new after
    rcases update_append_of_mem channel with channel | ⟨rfl, ofTask⟩
    · obtain ⟨_, before⟩ := (jobs.mp after).resolve_left fun here => apart channel here.1
      exact inv.delivering delivery mem entry channel new before
    · obtain ⟨_, rfl⟩ := (jobs.mp after).resolve_right fun other => other.1 rfl
      exact ⟨ofTask, fun terminal => absurd ofTask (not_telling silent mem terminal)⟩
  · intro entry new after message told
    rcases jobs.mp after with ⟨_, rfl⟩ | ⟨_, before⟩
    · exact inv.fits found message (told.imp id fun returned => by cases returned)
    · exact inv.fits before message told

variable {rest : List Message}

theorem Inv.receive (found : state.jobs number = some job)
    (inbox : job.inbox = message :: rest) : Inv (state.receive number job.task message rest) := by
  have fit (other : Message) (mem : other ∈ message :: rest) : other.Fits job :=
    inv.fits found other (.inl (inbox ▸ mem))
  by_cases terminal : message.terminal = true
  swap
  · rw [State.receive, if_neg terminal]
    refine inv.modify (fun _ => rfl) (fun _ => rfl) (fun _ => rfl) ?_
    intro entry other picked before told mem
    rw [beq_iff_eq.mp picked, found] at before
    cases before
    exact fit told (.tail _ mem)
  rw [State.receive, if_pos terminal]
  have jobs {entry : Nat} {new : Job} : (state.modify (· == number) fun old =>
        { old with phase := .returned message, inbox := rest }).jobs entry = some new ↔
      entry = number ∧ { job with phase := .returned message, inbox := rest } = new ∨
        entry ≠ number ∧ state.jobs entry = some new := modify_one found _
  have channels (other : Task) {entry : Nat} :
      entry ∈ update state.channels job.task ((state.channels job.task).erase number)
        other ↔ entry ∈ state.channels other ∧ entry ≠ number := by
    by_cases eq : other = job.task
    · subst eq
      rw [update_self, (inv.nodup _).mem_erase_iff, and_comm]
    · rw [update_of_ne eq]
      refine ⟨fun mem => ⟨mem, ?_⟩, And.left⟩
      rintro rfl
      obtain ⟨again, before, ofTask, _⟩ := inv.registered mem
      cases found.symm.trans before
      exact eq ofTask.symm
  refine
    { fresh := fun entry ahead => ?_, registered := ?_, listening := ?_, nodup := ?_,
      unserved := fun _ mem => inv.modify_unserved (· == number)
        (fun old => { old with phase := .returned message, inbox := rest })
        (fun _ => rfl) (fun _ => rfl) mem
      once := inv.once, delivering := ?_, fits := ?_, started := inv.started }
  · simp [State.modify, inv.fresh entry ahead]
  · intro task entry mem
    obtain ⟨mem, different⟩ := (channels task).mp mem
    obtain ⟨old, before, place⟩ := inv.registered mem
    exact ⟨old, jobs.mpr (.inr ⟨different, before⟩), place⟩
  · intro entry new after waiting
    rcases jobs.mp after with ⟨_, rfl⟩ | ⟨different, before⟩
    · cases waiting
    · exact (channels new.task).mpr ⟨inv.listening before waiting, different⟩
  · intro task
    by_cases eq : task = job.task
    · subst eq
      simpa using (inv.nodup _).erase number
    · simpa [update_of_ne eq] using inv.nodup task
  · intro delivery mem entry channel new after
    obtain ⟨channel, different⟩ := (channels _).mp channel
    obtain ⟨_, before⟩ := (jobs.mp after).resolve_left fun here => different here.1
    exact inv.delivering delivery mem entry channel new before
  · intro entry new after told about
    rcases jobs.mp after with ⟨_, rfl⟩ | ⟨_, before⟩
    · rcases about with mem | returned
      · exact fit told (.tail _ mem)
      · obtain rfl : message = told := Phase.returned.inj returned
        exact fit message (.head _)
    · exact inv.fits before told about

theorem Inv.serve (which : Nat → Bool) (run : Option Nat)
    (without : ∀ number job, which number = true → state.jobs number = some job → job.run = none)
    (jobs : next.jobs = (state.modify which fun job => { job with run }).jobs)
    (counter : state.next ≤ next.next) (channels : next.channels = state.channels)
    (started : next.started = state.started) (deliveries : next.deliveries = state.deliveries)
    (unserved : next.unserved.Sublist state.unserved)
    (taken : ∀ entry ∈ next.unserved, which entry.1 = false) : Inv next := by
  have wired := inv.toWired.modify which (fun job => { job with run }) (fun _ => rfl) fun _ => rfl
  have fit {number : Nat} {old : Job} {message : Message} (before : state.jobs number = some old)
      (fits : message.Fits old) :
      message.Fits (if which number = true then { old with run } else old) := by
    split
    · rename_i picked
      exact fits.serve (without number old picked before) run
    · exact fits
  refine
    { fresh := fun entry ahead => ?_, registered := ?_, listening := ?_, nodup := ?_,
      unserved := ?_, once := inv.once.sublist (unserved.map _), delivering := ?_, fits := ?_,
      started := ?_ }
  · rw [jobs]
    exact wired.fresh entry (Nat.le_trans counter ahead)
  · rw [jobs, channels]
    exact wired.registered
  · rw [jobs, channels]
    exact wired.listening
  · rw [channels]
    exact inv.nodup
  · intro entry mem
    obtain ⟨job, found, rest⟩ := inv.unserved entry (unserved.subset mem)
    refine ⟨job, ?_, rest⟩
    rw [jobs, modify_jobs_eq_some]
    exact ⟨job, found, by simp [taken entry mem]⟩
  · intro delivery mem number channel job found
    rw [jobs, modify_jobs_eq_some] at found
    rw [channels] at channel
    rw [deliveries] at mem
    obtain ⟨old, before, rfl⟩ := found
    exact fit before (inv.delivering delivery mem number channel old before)
  · intro number job found message told
    rw [jobs, modify_jobs_eq_some] at found
    obtain ⟨old, before, rfl⟩ := found
    refine fit before (inv.fits before message ?_)
    split at told <;> exact told
  · rw [started]
    exact inv.started

omit inv in
theorem unserved_of_process (alive : state.process = some process) :
    state.unserved = process.commands ++ process.accepted := by
  simp [State.unserved, alive]

theorem Inv.command {rest : List (Nat × Task)}
    (alive : state.process = some process) (commands : process.commands = (number, task) :: rest)
    (found : Bool) : Inv (state.command process number task rest found) := by
  have before : state.unserved = (number, task) :: (rest ++ process.accepted) := by
    rw [unserved_of_process alive, commands, cons_append]
  cases found with
  | true =>
    refine inv.frame rfl rfl rfl rfl ?_ fun delivery mem => .inl mem
    rw [before, unserved_of_process rfl]
    have moved : (rest ++ (process.accepted ++ [(number, task)])).Perm
        ((number, task) :: (rest ++ process.accepted)) := by
      rw [← append_assoc]
      exact perm_append_singleton _ _
    exact moved.subperm
  | false =>
    have distinct := inv.once
    rw [before, map_cons, nodup_cons] at distinct
    refine inv.serve (· == number) (some state.next) ?_ rfl (Nat.le_succ _) rfl rfl rfl ?_ ?_
    · intro other job picked eq
      obtain ⟨again, present, _, without⟩ := inv.unserved (number, task) (before ▸ .head _)
      rw [beq_iff_eq.mp picked, present] at eq
      exact Option.some.inj eq ▸ without
    · rw [before, unserved_of_process rfl]
      exact sublist_cons_self _ _
    · intro entry mem
      rw [unserved_of_process rfl] at mem
      refine beq_eq_false_iff_ne.mpr fun eq => distinct.1 ?_
      exact mem_map.mpr ⟨entry, mem, eq⟩

theorem Inv.begin (alive : state.process = some process) (task : Task) :
    Inv (state.begin process task) := by
  have before := unserved_of_process alive
  have accepted {number : Nat} (picked : process.accepted.contains (number, task) = true) :
      (number, task) ∈ process.accepted := by
    simpa using picked
  refine inv.serve (fun number => process.accepted.contains (number, task)) (some state.next) ?_
    rfl (Nat.le_succ _) rfl rfl rfl ?_ ?_
  · intro number job picked found
    have mem : (number, task) ∈ state.unserved :=
      before ▸ mem_append_right _ (accepted picked)
    obtain ⟨again, present, _, without⟩ := inv.unserved _ mem
    rw [found] at present
    exact Option.some.inj present ▸ without
  · rw [before, unserved_of_process rfl]
    exact (List.Sublist.refl _).append filter_sublist
  · intro entry mem
    rw [unserved_of_process rfl] at mem
    by_contra picked
    have other := accepted (Bool.not_eq_false _ ▸ picked)
    rcases mem_append.mp mem with mem | mem
    · -- the command of a job stands in one of the two lists
      have distinct := inv.once
      rw [before, map_append, nodup_append] at distinct
      exact distinct.2.2 entry.1 (mem_map_of_mem mem) entry.1
        (mem_map.mpr ⟨_, other, rfl⟩) rfl
    · obtain ⟨mem, different⟩ := mem_filter.mp mem
      obtain ⟨job, found, ofTask, _⟩ := inv.unserved entry (before ▸ mem_append_right _ mem)
      obtain ⟨again, present, eq, _⟩ :=
        inv.unserved (entry.1, task) (before ▸ mem_append_right _ other)
      cases found.symm.trans present
      exact of_decide_eq_true different (ofTask.symm.trans eq)

theorem Inv.startFake
    (stored : message.task.isReplication = true → state.channels message.task = [] →
      message.task.stored = true) : Inv (state.startFake message) := by
  rw [State.startFake]
  split
  · rename_i alone
    simp only [Bool.and_eq_true, List.isEmpty_iff] at alone
    rw [fake_of_stored alone.1 (stored alone.1 alone.2)]
    have added := inv.addJob
      { task := message.task, phase := .queued, inbox := [], run := message.run } rfl rfl
    refine { added with started := ?_ }
    intro entry mem
    rcases mem_append.mp mem with mem | new
    · exact inv.started entry mem
    · obtain rfl := mem_singleton.mp new
      rfl
  · exact inv

theorem Inv.read (readable : state.Readable message) :
    Inv (state.read message rest) := by
  have fit (waits : message.terminal = true → state.AllUnfinished fun job =>
      job.task = message.task → job.phase = .waiting ∧ job.run = message.run) :
      ∀ number ∈ state.channels message.task, ∀ job, state.jobs number = some job →
        message.Fits job := by
    intro number channel job found
    obtain ⟨again, present, ofTask, waiting⟩ := inv.registered channel
    cases found.symm.trans present
    refine ⟨ofTask.symm, fun terminal => .inl ?_⟩
    have unfinished := unfinished_of_waiting waiting
    exact ((waits terminal).of_job inv.toWired found unfinished ofTask).2.symm
  have reading {active : List Task} : Inv { state with
      observer := rest, active := active, reader := some ⟨message, 0⟩ } := by
    refine inv.frame rfl rfl rfl rfl (List.Subperm.refl _) fun delivery mem => ?_
    rcases mem_deliveries.mp mem with eq | joining
    · cases eq
      exact .inr (fit readable.1)
    · exact .inl (mem_deliveries.mpr (.inr joining))
  rw [State.read]
  split
  · rename_i kind
    refine Inv.startFake (inv.frame rfl rfl rfl rfl (List.Subperm.refl _) ?_) ?_
    · exact fun delivery mem => .inl mem
    · exact fun replication alone => (readable.2 kind replication alone).1
  all_goals exact reading

theorem Inv.round (mem : delivery ∈ state.deliveries) :
    Inv (state.round delivery).1 := by
  rw [State.round]
  split
  · exact inv
  · rename_i number listed
    have channel := mem_of_getElem? listed
    refine inv.modify (fun _ => rfl) (fun _ => rfl) (fun _ => rfl) ?_
    intro other job picked found told inside
    rcases mem_append.mp inside with inside | new
    · exact inv.fits found told (.inl inside)
    · obtain rfl := mem_singleton.mp new
      rw [beq_iff_eq.mp picked] at found
      exact inv.delivering delivery mem number channel job found

omit inv in
theorem round_rest (state : State) (delivery : Delivery) :
    (state.round delivery).1.reader = state.reader ∧
      (state.round delivery).1.channels = state.channels ∧
      (state.round delivery).1.observer = state.observer ∧
      (state.round delivery).1.process = state.process ∧
      (state.round delivery).1.died = state.died ∧
      (state.round delivery).1.joiner = state.joiner := by
  rw [State.round]
  split <;> exact ⟨rfl, rfl, rfl, rfl, rfl, rfl⟩

omit inv in
theorem round_deliveries (state : State) (delivery : Delivery) :
    (state.round delivery).1.deliveries = state.deliveries := by
  rw [State.round]
  split <;> rfl

omit inv in
theorem round_message {delivery other : Delivery}
    (moved : (state.round delivery).2 = some other) : other.message = delivery.message := by
  rw [State.round] at moved
  split at moved
  · cases moved
  · exact (Option.some.inj moved) ▸ rfl

theorem Inv.round_fits {delivery other : Delivery}
    (mem : delivery ∈ state.deliveries) (moved : (state.round delivery).2 = some other) :
    ∀ number ∈ (state.round delivery).1.channels other.message.task,
      ∀ job, (state.round delivery).1.jobs number = some job → other.message.Fits job := by
  rw [round_message moved]
  exact (inv.round mem).delivering delivery ((round_deliveries _ _).symm ▸ mem)

theorem Inv.deliver (reading : state.reader = some delivery) :
    Inv { (state.round delivery).1 with reader := (state.round delivery).2 } := by
  have mem : delivery ∈ state.deliveries := mem_deliveries.mpr (.inl reading)
  refine (inv.round mem).frame rfl rfl rfl rfl (List.Subperm.refl _) fun other present => ?_
  rcases mem_deliveries.mp present with moved | joining
  · exact .inr (inv.round_fits mem moved)
  · exact .inl (mem_deliveries.mpr (.inr joining))

theorem Inv.joinDeliver {todo : List Task} (joining : state.joiner = some ⟨todo, some delivery⟩) :
    Inv { (state.round delivery).1 with joiner := some ⟨todo, (state.round delivery).2⟩ } := by
  have mem : delivery ∈ state.deliveries :=
    mem_deliveries.mpr (.inr ⟨_, joining, rfl⟩)
  refine (inv.round mem).frame rfl rfl rfl rfl (List.Subperm.refl _) fun other present => ?_
  rcases mem_deliveries.mp present with reading | ⟨_, after, moved⟩
  · exact .inl (mem_deliveries.mpr (.inl reading))
  · cases after
    exact .inr (inv.round_fits mem moved)

theorem Inv.joinTask {todo active : List Task} :
    Inv { state with active, joiner := some ⟨todo, some ⟨⟨task, .error, none⟩, 0⟩⟩ } := by
  refine inv.frame rfl rfl rfl rfl (List.Subperm.refl _) fun other present => ?_
  rcases mem_deliveries.mp present with reading | ⟨_, after, eq⟩
  · exact .inl (mem_deliveries.mpr (.inl reading))
  · refine .inr fun number channel job found => ?_
    cases after
    cases eq
    obtain ⟨again, present, ofTask, _⟩ := inv.registered channel
    cases found.symm.trans present
    exact ⟨ofTask.symm, fun _ => .inr rfl⟩

end TruenasMiddleware.Zettarepl
