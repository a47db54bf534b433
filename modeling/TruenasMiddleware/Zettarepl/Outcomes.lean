import TruenasMiddleware.Zettarepl.Channels

/-! Every job learns the outcome of its run. Along the runs that are `Sound`, the outcome of a
request is always somewhere between the command queue and the channel of the job, and `Pending`
says where. -/

namespace TruenasMiddleware.Zettarepl

open Transition Option List

/-- The live process has yet to finish the run that the job waits for. -/
def Going (state : State) (number : Nat) (job : Job) : Prop :=
  ∃ process, state.process = some process ∧
    ((number, job.task) ∈ process.commands ∨ (number, job.task) ∈ process.accepted ∨
      ∃ run, job.run = some run ∧ (job.task, run) ∈ process.runs)

def Quiet (state : State) : Prop :=
  state.observer = [] ∧ state.reader = none ∧ state.died = false ∧ state.joiner = none

/-- Where the outcome of the run that an unfinished job waits for is. -/
inductive Pending (state : State) (number : Nat) (job : Job) : Prop
  | going (going : Going state number job)
  | posted (message : Message) (member : message ∈ state.observer) (ends : message.Ends job)
  | delivered (delivery : Delivery) (member : delivery ∈ state.deliveries)
      (ends : delivery.message.Ends job)
      (ahead : number ∈ (state.channels job.task).drop delivery.index)
  | notified (told : job.notified = true)
  | died (died : state.died = true)
  | joined (joiner : Joiner) (joining : state.joiner = some joiner)
      (ahead : job.task ∈ joiner.todo) (waiting : job.phase = .waiting)

def Coming (state : State) : Prop :=
  ∀ ⦃number job⦄, state.jobs number = some job → job.finished = false → Pending state number job

variable {state next : State} {number run : Nat} {job : Job} {task : Task} {message other : Message}

/-! ### Outcomes on their way -/

theorem Pending.keep (pending : Pending state number job)
    (going : Going state number job → Pending next number job)
    (observer : ∀ message ∈ state.observer, message ∈ next.observer)
    (deliveries : next.deliveries = state.deliveries)
    (channels : ∀ delivery ∈ state.deliveries, delivery.message.Ends job →
      number ∈ (state.channels job.task).drop delivery.index →
        number ∈ (next.channels job.task).drop delivery.index)
    (died : next.died = state.died) (joiner : next.joiner = state.joiner) :
    Pending next number job := by
  cases pending with
  | going now => exact going now
  | posted message mem ends => exact .posted message (observer message mem) ends
  | delivered delivery mem ends ahead =>
    exact .delivered delivery (deliveries ▸ mem) ends (channels delivery mem ends ahead)
  | notified told => exact .notified told
  | died gone => exact .died (died.trans gone)
  | joined old joining ahead waiting => exact .joined old (joiner.trans joining) ahead waiting

theorem Pending.change (pending : Pending state number job) {new : Job}
    (task : new.task = job.task) (run : new.run = job.run)
    (phase : job.phase = .waiting → new.phase = .waiting)
    (notified : job.notified = true → new.notified = true) : Pending state number new := by
  cases pending with
  | going now =>
    refine .going ?_
    rw [Going, task, run]
    exact now
  | posted message mem ends => exact .posted message mem ⟨ends.1, ends.2.trans task.symm⟩
  | delivered delivery mem ends ahead =>
    exact .delivered delivery mem ⟨ends.1, ends.2.trans task.symm⟩ (task ▸ ahead)
  | notified told => exact .notified (notified told)
  | died gone => exact .died gone
  | joined joiner joining ahead waiting =>
    exact .joined joiner joining (task ▸ ahead) (phase waiting)

theorem Coming.start : Coming start := by
  intro number job found
  cases found

variable {process : Process}

theorem Inv.task_of_unserved (inv : Inv state) (alive : state.process = some process)
    (mem : (number, task) ∈ process.commands ++ process.accepted)
    (present : state.jobs number = some job) : job.task = task := by
  rw [← unserved_of_process alive] at mem
  obtain ⟨again, found, ofTask, -⟩ := inv.unserved _ mem
  cases present.symm.trans found
  exact ofTask

variable (coming : Coming state)
include coming

theorem Coming.request (inv : Inv state)
    (alive : state.process.isSome = true) (task : Task) : Coming (state.request task) := by
  obtain ⟨process, running⟩ := isSome_iff_exists.mp alive
  have after : (state.request task).process =
      some { process with commands := process.commands ++ [(state.next, task)] } := by
    simp [State.request, running]
  intro number job found unfinished
  rcases (addJob_jobs_eq_some inv.toWired).mp found with found | ⟨rfl, rfl⟩
  · refine (coming found unfinished).keep ?_ (fun _ h => h) rfl (fun _ _ _ h => h) rfl rfl
    rintro ⟨eq, again, place⟩
    cases running.symm.trans again
    exact .going ⟨_, after, place.imp_left (mem_append_left _)⟩
  · exact .going ⟨_, after, .inl (mem_append_right _ (.head _))⟩

theorem Coming.register (found : state.jobs number = some job)
    (queued : job.phase = .queued) : Coming (state.register number job.task) := by
  intro entry new after unfinished
  have kept {old : Job} (before : state.jobs entry = some old) (still : old.finished = false) :
      Pending (state.register number job.task) entry old := by
    refine (coming before still).keep (fun now => .going now) (fun _ h => h) rfl ?_ rfl rfl
    intro delivery mem ends ahead
    by_cases eq : old.task = job.task
    · rw [eq] at ahead ⊢
      simp only [State.register, Function.update_self, drop_append]
      exact mem_append_left _ ahead
    · simpa [State.register, Function.update_of_ne eq] using ahead
  rcases (modify_one found _).mp after with ⟨rfl, rfl⟩ | ⟨_, before⟩
  · exact (kept found (by simp [Job.finished, queued])).change rfl rfl (fun _ => rfl) id
  · exact kept before unfinished

variable {rest : List Message} {served : Process} {delivery : Delivery} {label : Label}

theorem Coming.receive (found : state.jobs number = some job) (inbox : job.inbox = message :: rest)
    (silent : message.terminal = true → state.telling job.task = false) :
    Coming (state.receive number job.task message rest) := by
  intro entry new after unfinished
  by_cases terminal : message.terminal = true
  · rw [State.receive, if_pos terminal] at after ⊢
    rcases (modify_one found _).mp after with ⟨_, rfl⟩ | ⟨_, before⟩
    · -- the job has returned
      cases unfinished
    · refine (coming before unfinished).keep (fun now => .going now) (fun _ h => h) rfl ?_ rfl rfl
      intro delivery mem ends ahead
      have different := not_telling (silent terminal) mem ends.1
      have elsewhere : new.task ≠ job.task := ends.2 ▸ different
      simpa only [Function.update_of_ne elsewhere] using ahead
  · rw [State.receive, if_neg terminal] at after ⊢
    have kept {old : Job} (before : state.jobs entry = some old) (still : old.finished = false) :
        Pending (state.modify (· == number) fun old => { old with inbox := rest }) entry old :=
      (coming before still).keep (fun now => .going now) (fun _ h => h) rfl (fun _ _ _ h => h)
        rfl rfl
    rcases (modify_one found _).mp after with ⟨rfl, rfl⟩ | ⟨_, before⟩
    · refine (kept found unfinished).change rfl rfl id fun told => ?_
      simpa [Job.notified, inbox, terminal] using told
    · exact kept before unfinished

theorem Coming.command (inv : Inv state) {rest : List (Nat × Task)}
    (alive : state.process = some process) (commands : process.commands = (number, task) :: rest)
    (found : Bool) :
    Coming (state.command process number task rest found) := by
  have first : (number, task) ∈ state.unserved := by
    rw [unserved_of_process alive, commands]
    exact .head _
  cases found with
  | true =>
    intro entry job present unfinished
    refine (coming present unfinished).keep ?_ (fun _ h => h) rfl (fun _ _ _ h => h) rfl rfl
    rintro ⟨eq, again, place⟩
    cases alive.symm.trans again
    refine .going ⟨_, rfl, ?_⟩
    rcases place with place | place | place
    · rw [commands] at place
      rcases mem_cons.mp place with eq | later
      · exact .inr (.inl (mem_append_right _ (eq ▸ .head _)))
      · exact .inl later
    · exact .inr (.inl (mem_append_left _ place))
    · exact .inr (.inr place)
  | false =>
    intro entry job present unfinished
    obtain ⟨again, found, ofTask, _⟩ := inv.unserved _ first
    rcases (modify_one found _).mp present with ⟨_, rfl⟩ | ⟨eq, before⟩
    · exact .posted _ (mem_append_right _ (.head _)) ⟨rfl, ofTask.symm⟩
    · refine (coming before unfinished).keep ?_ (fun _ h => mem_append_left _ h) rfl
        (fun _ _ _ h => h) rfl rfl
      rintro ⟨other, again, place⟩
      cases alive.symm.trans again
      refine .going ⟨_, rfl, place.imp_left fun mem => ?_⟩
      rw [commands] at mem
      rcases mem_cons.mp mem with head | later
      · exact absurd (congrArg Prod.fst head) eq
      · exact later

theorem Coming.begin (inv : Inv state)
    (alive : state.process = some process) (task : Task) : Coming (state.begin process task) := by
  intro number job present unfinished
  obtain ⟨old, before, rfl⟩ := (modify_jobs_eq_some state
    (fun number => process.accepted.contains (number, task))
    fun old => { old with run := some state.next }).mp present
  by_cases picked : process.accepted.contains (number, task) = true
  · have ofTask := inv.task_of_unserved alive (mem_append_right _ (by simpa using picked)) before
    rw [if_pos picked]
    refine .going ⟨_, rfl, .inr (.inr ⟨state.next, rfl, mem_append_right _ ?_⟩)⟩
    exact ofTask ▸ .head _
  · rw [if_neg picked] at unfinished ⊢
    refine (coming before unfinished).keep ?_ (fun _ h => mem_append_left _ h) rfl
      (fun _ _ _ h => h) rfl rfl
    rintro ⟨other, again, place⟩
    cases alive.symm.trans again
    refine .going ⟨_, rfl, place.imp_right (Or.imp (fun accepted => ?_) ?_)⟩
    · -- an accepted command of the task would have been picked
      refine mem_filter.mpr ⟨accepted, decide_eq_true fun eq => picked ?_⟩
      simpa using eq ▸ accepted
    · exact fun ⟨run, ofRun, mem⟩ => ⟨run, ofRun, mem_append_left _ mem⟩

theorem Coming.post (message : Message) : Coming (state.post message) := by
  intro number job found unfinished
  exact (coming found unfinished).keep (fun now => .going now)
    (fun _ h => mem_append_left _ h) rfl (fun _ _ _ h => h) rfl rfl

theorem Coming.finish (alive : state.process = some process) (task : Task)
    (run : Nat) (success : Bool) :
    Coming (state.finish process task run success) := by
  intro number job found unfinished
  refine (coming found unfinished).keep ?_ (fun _ h => mem_append_left _ h) rfl
    (fun _ _ _ h => h) rfl rfl
  rintro ⟨other, again, place⟩
  cases alive.symm.trans again
  by_cases eq : job.task = task
  · -- the reader takes the message only if it is for the run of all jobs that wait for the task
    refine .posted _ (mem_append_right _ (.head _)) ⟨?_, eq.symm⟩
    cases success <;> rfl
  · refine .going ⟨_, rfl, place.imp_right (Or.imp_right ?_)⟩
    rintro ⟨other, ofRun, mem⟩
    refine ⟨other, ofRun, (mem_erase_of_ne fun equal => eq ?_).mpr mem⟩
    exact congrArg Prod.fst equal

variable {active todo : List Task}

theorem Coming.reading (inv : Inv state)
    (idle : state.reader = none) (observer : state.observer = message :: rest)
    (readable : state.Readable message) :
    Coming { state with observer := rest, active, reader := some ⟨message, 0⟩ } := by
  intro number job found unfinished
  cases coming found unfinished with
  | going now => exact .going now
  | posted other mem ends =>
    rw [observer] at mem
    rcases mem_cons.mp mem with rfl | later
    · have waiting := ((readable.1 ends.1).of_job inv.toWired found unfinished ends.2.symm).1
      exact .delivered ⟨other, 0⟩ (mem_deliveries.mpr (.inl rfl)) ends (inv.listening found waiting)
    · exact .posted other later ends
  | delivered delivery mem ends ahead =>
    rcases mem_deliveries.mp mem with reading | joining
    · rw [idle] at reading
      cases reading
    · exact .delivered delivery (mem_deliveries.mpr (.inr joining)) ends ahead
  | notified told => exact .notified told
  | died gone => exact .died gone
  | joined joiner joining ahead waiting => exact .joined joiner joining ahead waiting

omit coming in
theorem mem_rest_of_terminal (observer : state.observer = message :: rest)
    (kind : message.kind = .start) (terminal : other.terminal = true)
    (mem : other ∈ state.observer) : other ∈ rest := by
  rw [observer] at mem
  rcases mem_cons.mp mem with rfl | later
  · simp [Message.terminal, kind] at terminal
  · exact later

theorem Coming.startFake (inv : Inv state)
    (observer : state.observer = message :: rest) (kind : message.kind = .start)
    (readable : state.Readable message) :
    Coming (State.startFake { state with observer := rest, active } message) := by
  have kept {number : Nat} {job : Job} {jobs : Nat → Option Job} {counter : Nat}
      {started : List (Task × Task)} (found : state.jobs number = some job)
      (unfinished : job.finished = false) :
      Pending { state with observer := rest, active, jobs, next := counter, started } number
        job := by
    cases coming found unfinished with
    | going now => exact .going now
    | posted other mem ends =>
      exact .posted other (mem_rest_of_terminal observer kind ends.1 mem) ends
    | delivered delivery mem ends ahead => exact .delivered delivery mem ends ahead
    | notified told => exact .notified told
    | died gone => exact .died gone
    | joined joiner joining ahead waiting => exact .joined joiner joining ahead waiting
  rw [State.startFake]
  split
  · rename_i alone
    simp only [Bool.and_eq_true, List.isEmpty_iff] at alone
    obtain ⟨stored, followed⟩ := readable.2 kind alone.1 alone.2
    rw [fake_of_stored alone.1 stored]
    intro number job found unfinished
    rcases (addJob_jobs_eq_some inv.toWired).mp found with found | ⟨rfl, rfl⟩
    · exact kept found unfinished
    · rcases followed with ⟨process, alive, run, ofRun, going⟩ | ⟨outcome, mem, terminal, eq⟩
      · exact .going ⟨process, alive, .inr (.inr ⟨run, ofRun, going⟩)⟩
      · exact .posted outcome (mem_rest_of_terminal observer kind terminal mem) ⟨terminal, eq⟩
  · intro number job found unfinished
    exact kept found unfinished

theorem Coming.read (inv : Inv state) (idle : state.reader = none)
    (observer : state.observer = message :: rest) (readable : state.Readable message) :
    Coming (state.read message rest) := by
  rw [State.read]
  split
  · rename_i kind
    exact coming.startFake inv observer kind readable
  all_goals exact coming.reading inv idle observer readable

theorem Coming.round (jobs : next.jobs = (state.round delivery).1.jobs)
    (channels : next.channels = state.channels) (observer : next.observer = state.observer)
    (process : next.process = state.process) (died : next.died = state.died)
    (joiner : ∀ joiner, state.joiner = some joiner → ∃ eq, next.joiner = some eq ∧
      eq.todo = joiner.todo)
    (others : ∀ other ∈ state.deliveries, other = delivery ∨ other ∈ next.deliveries)
    (moved : ∀ other, (state.round delivery).2 = some other → other ∈ next.deliveries) :
    Coming next := by
  have kept {number : Nat} {old : Job} (pending : Pending state number old)
      (here : delivery.message.Ends old →
        number ∈ (state.channels old.task).drop delivery.index → Pending next number old) :
      Pending next number old := by
    cases pending with
    | going now =>
      refine .going ?_
      rw [Going, process]
      exact now
    | posted message mem ends => exact .posted message (observer ▸ mem) ends
    | delivered other mem ends ahead =>
      rcases others other mem with rfl | mem
      · exact here ends ahead
      · exact .delivered other mem ends (channels ▸ ahead)
    | notified told => exact .notified told
    | died gone => exact .died (died.trans gone)
    | joined old joining ahead waiting =>
      obtain ⟨eq, after, todo⟩ := joiner old joining
      exact .joined eq after (todo ▸ ahead) waiting
  intro number job found unfinished
  rw [jobs] at found
  rw [State.round] at found moved
  split at found
  · rename_i ended
    refine kept (coming found unfinished) fun ends ahead => ?_
    rw [← ends.2, drop_eq_nil_of_le (List.getElem?_eq_none_iff.mp ended)] at ahead
    cases ahead
  · rename_i told listed
    rw [State.put, modify_jobs_eq_some] at found
    obtain ⟨old, before, rfl⟩ := found
    have still : old.finished = false := by
      split at unfinished <;> exact unfinished
    simp only [listed, Option.some.injEq, forall_eq'] at moved
    by_cases eq : number = told
    · simp only [eq, beq_self_eq_true, if_true]
      by_cases terminal : delivery.message.terminal = true
      · exact .notified (by simp [Job.notified, terminal])
      · have pending := kept (eq ▸ coming before still) fun ends => absurd ends.1 terminal
        refine pending.change rfl rfl id fun told => ?_
        simp only [Job.notified, any_append, Bool.or_eq_true]
        exact .inl told
    · simp only [beq_iff_eq, eq, if_false]
      refine kept (coming before still) fun ends ahead => ?_
      obtain ⟨inside, first⟩ := List.getElem?_eq_some_iff.mp listed
      rw [← ends.2, drop_eq_getElem_cons inside, first] at ahead
      have later := (mem_cons.mp ahead).resolve_left eq
      refine .delivered _ moved ends ?_
      rwa [channels, ← ends.2]

theorem Coming.deliver (reading : state.reader = some delivery) :
    Coming { (state.round delivery).1 with reader := (state.round delivery).2 } := by
  obtain ⟨_, channels, observer, process, died, joiner⟩ := round_rest state delivery
  refine coming.round rfl channels observer process died ?_ ?_ ?_
  · exact fun old joining => ⟨old, joiner.trans joining, rfl⟩
  · intro other mem
    rcases mem_deliveries.mp mem with eq | ⟨old, joining, ofLoop⟩
    · exact .inl (Option.some.inj (eq.symm.trans reading))
    · exact .inr (mem_deliveries.mpr (.inr ⟨old, joiner.trans joining, ofLoop⟩))
  · exact fun other moved => mem_deliveries.mpr (.inl moved)

theorem Coming.joinDeliver (joining : state.joiner = some ⟨todo, some delivery⟩) :
    Coming { (state.round delivery).1 with joiner := some ⟨todo, (state.round delivery).2⟩ } := by
  obtain ⟨reader, channels, observer, process, died, _⟩ := round_rest state delivery
  refine coming.round rfl channels observer process died ?_ ?_ ?_
  · intro old eq
    cases joining.symm.trans eq
    exact ⟨_, rfl, rfl⟩
  · intro other mem
    rcases mem_deliveries.mp mem with reading | ⟨old, eq, ofLoop⟩
    · exact .inr (mem_deliveries.mpr (.inl (reader.trans reading)))
    · cases joining.symm.trans eq
      exact .inl (Option.some.inj ofLoop).symm
  · exact fun other moved => mem_deliveries.mpr (.inr ⟨_, rfl, moved⟩)

theorem Coming.launch (gone : state.process = none) (alive : state.died = false) :
    Coming { state with opened := true, process := some .new, died := false } := by
  intro number job found unfinished
  refine (coming found unfinished).keep ?_ (fun _ h => h) rfl (fun _ _ _ h => h) alive.symm rfl
  rintro ⟨process, running, _⟩
  rw [gone] at running
  cases running

omit coming in
theorem Coming.joinBegin (inv : Inv state)
    (ready : state.AllUnfinished fun job =>
      job.notified = true ∨ (∃ message ∈ state.observer, message.Ends job) ∨
        job.phase = .waiting ∧ job.task ∈ state.active) :
    Coming { state with died := false, joiner := some ⟨state.active, none⟩ } := by
  intro number job found unfinished
  rcases ready.of_job inv.toWired found unfinished with told | ⟨message, mem, ends⟩ | reported
  · exact .notified told
  · exact .posted message mem ends
  · exact .joined _ rfl reported.2 reported.1

theorem Coming.joinTask (inv : Inv state) (joining : state.joiner = some ⟨task :: todo, none⟩) :
    Coming { state with active, joiner := some ⟨todo, some ⟨⟨task, .error, none⟩, 0⟩⟩ } := by
  intro number job found unfinished
  cases coming found unfinished with
  | going now => exact .going now
  | posted message mem ends => exact .posted message mem ends
  | delivered delivery mem ends ahead =>
    rcases mem_deliveries.mp mem with reading | ⟨old, eq, ofLoop⟩
    · exact .delivered delivery (mem_deliveries.mpr (.inl reading)) ends ahead
    · cases joining.symm.trans eq
      cases ofLoop
  | notified told => exact .notified told
  | died gone => exact .died gone
  | joined old eq ahead waiting =>
    cases joining.symm.trans eq
    rcases mem_cons.mp ahead with ofTask | later
    · exact .delivered _ (mem_deliveries.mpr (.inr ⟨_, rfl, rfl⟩)) ⟨rfl, ofTask.symm⟩
        (inv.listening found waiting)
    · exact .joined _ rfl later waiting

theorem Coming.joinEnd (joining : state.joiner = some ⟨[], none⟩) (lives : state.died ≠ true)
    {process : Option Process} (kept : ∀ old, state.process = some old → process = some old)
    (died : Bool) : Coming { state with joiner := none, process, died } := by
  intro number job found unfinished
  cases coming found unfinished with
  | going now =>
    obtain ⟨old, running, place⟩ := now
    exact .going ⟨old, kept old running, place⟩
  | posted message mem ends => exact .posted message mem ends
  | delivered delivery mem ends ahead =>
    rcases mem_deliveries.mp mem with reading | ⟨old, eq, ofLoop⟩
    · exact .delivered delivery (mem_deliveries.mpr (.inl reading)) ends ahead
    · cases joining.symm.trans eq
      cases ofLoop
  | notified told => exact .notified told
  | died gone => exact absurd gone lives
  | joined old eq ahead waiting =>
    cases joining.symm.trans eq
    cases ahead

omit coming

/-! ### Steps -/

inductive Move (state : State) : Label → State → Prop
  | request (task : Task) : Move state (.request task) (state.request task)
  | register {number : Nat} {job : Job} (found : state.jobs number = some job)
      (queued : job.phase = .queued) :
      Move state (.register number) (state.register number job.task)
  | receive {number : Nat} {job : Job} {message : Message} {rest : List Message}
      (found : state.jobs number = some job) (inbox : job.inbox = message :: rest) :
      Move state (.receive number) (state.receive number job.task message rest)
  | command {process : Process} {number : Nat} {task : Task} {rest : List (Nat × Task)}
      (found : Bool) (alive : state.process = some process)
      (commands : process.commands = (number, task) :: rest) :
      Move state (.command found) (state.command process number task rest found)
  | begin {process : Process} (task : Task) (alive : state.process = some process) :
      Move state (.begin task) (state.begin process task)
  | progress {process : Process} (task : Task) (run : Nat)
      (alive : state.process = some process) (going : (task, run) ∈ process.runs) :
      Move state (.progress task run) (state.post ⟨task, .progress, some run⟩)
  | finish {process : Process} (task : Task) (run : Nat) (success : Bool)
      (alive : state.process = some process) (going : (task, run) ∈ process.runs) :
      Move state (.finish task run success) (state.finish process task run success)
  | read {message : Message} {rest : List Message} (raises : Bool) (idle : state.reader = none)
      (observer : state.observer = message :: rest) :
      Move state (.read raises)
        (if raises then { state with observer := rest } else state.read message rest)
  | deliver {delivery : Delivery} (reading : state.reader = some delivery) :
      Move state .deliver { (state.round delivery).1 with reader := (state.round delivery).2 }
  | stop : Move state .stop { state with process := none, died := false }
  | launch (gone : state.process = none) :
      Move state .launch { state with opened := true, process := some .new, died := false }
  | crash (startupError : Bool) (alive : state.process.isSome = true) :
      Move state (.crash startupError) { state with process := none, died := !startupError }
  | report (active : List Task) : Move state (.report active) { state with active := active }
  | joinBegin (raises : Bool) (died : state.died = true) (idle : state.joiner = none) :
      Move state (.joinBegin raises)
        { state with
          died := false
          joiner := if raises then none else some ⟨state.active, none⟩ }
  | joinTask {task : Task} {todo : List Task}
      (joining : state.joiner = some ⟨task :: todo, none⟩) :
      Move state (.joinTask false)
        { state with
          active := state.active.filter fun other => decide (other ≠ task)
          joiner := some ⟨todo, some ⟨⟨task, .error, none⟩, 0⟩⟩ }
  | joinFail : Move state (.joinTask true) { state with joiner := none }
  | joinDeliver {todo : List Task} {delivery : Delivery}
      (joining : state.joiner = some ⟨todo, some delivery⟩) :
      Move state .joinDeliver
        { (state.round delivery).1 with joiner := some ⟨todo, (state.round delivery).2⟩ }
  | joinEnd (restarts : Bool) (joining : state.joiner = some ⟨[], none⟩) :
      Move state (.joinEnd restarts)
        { state with
          joiner := none
          process := if restarts && state.process.isNone then some .new else state.process
          died := if restarts && state.process.isNone then false else state.died }

theorem move_of_step (taken : step state label = some next) : Move state label next := by
  cases label with simp only [step, ite_none_right_eq_some] at taken
  | request task => exact Option.some.inj taken.2 ▸ .request task
  | register number =>
    repeat' split at taken
    all_goals cases taken
    rename_i found queued
    exact .register found queued
  | receive number =>
    repeat' split at taken
    all_goals cases taken
    rename_i found _ _ message rest _ inbox
    exact .receive found inbox
  | command found =>
    repeat' split at taken
    all_goals cases taken
    rename_i alive _ number task rest commands
    exact .command found alive commands
  | begin task =>
    obtain ⟨process, alive, rfl⟩ := map_eq_some_iff.mp taken
    exact .begin task alive
  | progress task run =>
    repeat' split at taken
    all_goals cases taken
    rename_i alive going
    exact .progress task run alive going
  | finish task run success =>
    repeat' split at taken
    all_goals cases taken
    rename_i alive going
    exact .finish task run success alive going
  | read raises =>
    split at taken <;> cases taken
    rename_i message rest idle observer
    exact .read raises idle observer
  | deliver =>
    obtain ⟨delivery, reading, rfl⟩ := map_eq_some_iff.mp taken
    exact .deliver reading
  | stop => exact Option.some.inj taken ▸ .stop
  | launch => exact Option.some.inj taken.2 ▸ .launch (isNone_iff_eq_none.mp taken.1)
  | crash startupError => exact Option.some.inj taken.2 ▸ .crash startupError taken.1
  | report active => exact Option.some.inj taken ▸ .report active
  | joinBegin raises =>
    simp only [Bool.and_eq_true, isNone_iff_eq_none] at taken
    exact Option.some.inj taken.2 ▸ .joinBegin raises taken.1.1 taken.1.2
  | joinTask raises =>
    split at taken
    · rename_i task todo joining
      cases raises with
      | true => exact Option.some.inj taken ▸ .joinFail
      | false => exact Option.some.inj taken ▸ .joinTask joining
    · cases taken
  | joinDeliver =>
    split at taken <;> cases taken
    rename_i todo delivery joining
    exact .joinDeliver joining
  | joinEnd restarts =>
    split at taken <;> cases taken
    rename_i joining
    exact .joinEnd restarts joining

/-! ### Jobs that are told of an abnormal termination -/

/-- The numbers of runs are those given out, `_join` is at work only while there is no process, and
a job that it has told has no run in the process. -/
structure Told (state : State) : Prop where
  numbered : ∀ {number job run}, state.jobs number = some job → job.run = some run →
    run < state.next
  runs : ∀ {process}, state.process = some process → ∀ entry ∈ process.runs, entry.2 < state.next
  posted : ∀ message ∈ state.observer, ∃ run, message.run = some run ∧ run < state.next
  reading : ∀ {delivery}, state.reader = some delivery → delivery.message.run ≠ none
  dead : state.died = true ∨ state.joiner.isSome = true → state.process = none
  alone : state.died = true → state.joiner = none
  abandoned : ∀ {number job}, state.jobs number = some job → ∀ message, job.Got message →
    message.run = none → ¬ Going state number job

theorem Told.start : Told start where
  numbered found := by cases found
  runs alive := by cases alive
  posted _ member := by cases member
  reading absent := by cases absent
  dead _ := rfl
  alone _ := rfl
  abandoned found := by cases found

theorem not_going_of_gone (gone : state.process = none) : ¬ Going state number job := by
  rintro ⟨process, alive, _⟩
  rw [gone] at alive
  cases alive

variable (told : Told state)
include told

theorem Told.joining {joiner : Joiner} (joining : state.joiner = some joiner) :
    state.process = none ∧ state.died ≠ true := by
  refine ⟨told.dead (.inr (by simp [joining])), fun died => ?_⟩
  have absent := told.alone died
  rw [joining] at absent
  cases absent

theorem Told.frame (jobs : next.jobs = state.jobs) (counter : next.next = state.next)
    (process : next.process = state.process ∨ next.process = none ∨ next.process = some .new)
    (observer : ∀ message ∈ next.observer, message ∈ state.observer)
    (reading : ∀ {delivery}, next.reader = some delivery → delivery.message.run ≠ none)
    (dead : next.died = true ∨ next.joiner.isSome = true → next.process = none)
    (alone : next.died = true → next.joiner = none) : Told next where
  numbered := by
    rw [jobs, counter]
    exact told.numbered
  runs {running} alive entry member := by
    rw [counter]
    rcases process with eq | gone | fresh
    · exact told.runs (eq.symm.trans alive) entry member
    · rw [gone] at alive
      cases alive
    · cases fresh.symm.trans alive
      cases member
  posted message member := by
    rw [counter]
    exact told.posted message (observer message member)
  reading := reading
  dead := dead
  alone := alone
  abandoned {number job} found message got without := by
    rw [jobs] at found
    rcases process with eq | gone | fresh
    · rw [Going, eq]
      exact told.abandoned found message got without
    · exact not_going_of_gone gone
    · rintro ⟨running, alive, place⟩
      cases fresh.symm.trans alive
      simp [Process.new] at place

theorem Told.modify (which : Nat → Bool) (change : Job → Job)
    (keepsTask : ∀ job, (change job).task = job.task) (keepsRun : ∀ job, (change job).run = job.run)
    (got : ∀ number job, which number = true → state.jobs number = some job →
      ∀ message, (change job).Got message → message.run = none →
        job.Got message ∨ state.process = none) : Told (state.modify which change) where
  numbered {number job run} found ofRun := by
    obtain ⟨old, before, rfl⟩ := (modify_jobs_eq_some state which change).mp found
    refine told.numbered before (ofRun ▸ ?_)
    split
    · exact (keepsRun old).symm
    · rfl
  runs := told.runs
  posted := told.posted
  reading := told.reading
  dead := told.dead
  alone := told.alone
  abandoned {number job} found message given without := by
    obtain ⟨old, before, rfl⟩ := (modify_jobs_eq_some state which change).mp found
    by_cases picked : which number = true
    · rw [if_pos picked] at given ⊢
      have back : Going (state.modify which change) number (change old) ↔
          Going state number old := by
        rw [Going, keepsTask, keepsRun]
        rfl
      rw [back]
      rcases got number old picked before message given without with given | gone
      · exact told.abandoned before message given without
      · exact not_going_of_gone gone
    · rw [if_neg picked] at given ⊢
      exact told.abandoned before message given without

theorem Told.addJob (wired : Wired state) (new : Job)
    (queued : new.phase = .queued) (empty : new.inbox = [])
    (numbered : ∀ run, new.run = some run → run < state.next) : Told (state.addJob new) where
  numbered {number job run} found ofRun := by
    rcases (addJob_jobs_eq_some wired).mp found with found | ⟨_, rfl⟩
    · exact Nat.lt_succ_of_lt (told.numbered found ofRun)
    · exact Nat.lt_succ_of_lt (numbered run ofRun)
  runs alive entry member := Nat.lt_succ_of_lt (told.runs alive entry member)
  posted message member := by
    obtain ⟨run, ofRun, given⟩ := told.posted message member
    exact ⟨run, ofRun, Nat.lt_succ_of_lt given⟩
  reading := told.reading
  dead := told.dead
  alone := told.alone
  abandoned found message got without := by
    rcases (addJob_jobs_eq_some wired).mp found with found | ⟨_, rfl⟩
    · exact told.abandoned found message got without
    · simp [Job.Got, queued, empty] at got

theorem Told.request (wired : Wired state) (task : Task) :
    Told (state.request task) := by
  have added := told.addJob wired { task, phase := .queued, inbox := [], run := none } rfl rfl
    fun run absent => by cases absent
  refine { added with runs := ?_, dead := ?_, abandoned := ?_ }
  · intro process alive entry mem
    obtain ⟨old, running, rfl⟩ := map_eq_some_iff.mp alive
    exact added.runs running entry mem
  · intro ended
    simp [State.request, told.dead ended]
  · intro number job found message got without
    rintro ⟨process, alive, place⟩
    obtain ⟨old, running, rfl⟩ := map_eq_some_iff.mp alive
    refine added.abandoned found message got without ⟨old, running, ?_⟩
    rcases place with command | rest
    · rcases mem_append.mp command with command | last
      · exact .inl command
      · -- the job of the new command has got no message
        obtain rfl : number = state.next := congrArg Prod.fst (mem_singleton.mp last)
        rcases (addJob_jobs_eq_some wired).mp found with found | ⟨_, rfl⟩
        · exact absurd (wired.lt_next found) (Nat.lt_irrefl _)
        · simp [Job.Got] at got
    · exact .inr rest

theorem Told.serve (which : Nat → Bool)
    (alive : state.process = some process) (after : next.process = some served)
    (asked : ∀ number job, which number = true → state.jobs number = some job →
      Going state number job)
    (jobs : next.jobs = (state.modify which fun job => { job with run := some state.next }).jobs)
    (counter : next.next = state.next + 1)
    (going : ∀ number job, which number = false → state.jobs number = some job →
      Going next number job → Going state number job)
    (runs : ∀ entry ∈ served.runs, entry ∈ process.runs ∨ entry.2 = state.next)
    (observer : ∀ message ∈ next.observer, message ∈ state.observer ∨ message.run = some state.next)
    (reader : next.reader = state.reader) (died : next.died = state.died)
    (joiner : next.joiner = state.joiner) : Told next where
  numbered {number job run} found ofRun := by
    rw [counter]
    rw [jobs, modify_jobs_eq_some] at found
    obtain ⟨old, before, rfl⟩ := found
    split at ofRun
    · cases ofRun
      exact Nat.lt_succ_self _
    · exact Nat.lt_succ_of_lt (told.numbered before ofRun)
  runs {running} eq entry member := by
    rw [counter]
    cases after.symm.trans eq
    rcases runs entry member with old | new
    · exact Nat.lt_succ_of_lt (told.runs alive entry old)
    · exact new ▸ Nat.lt_succ_self _
  posted message member := by
    rw [counter]
    rcases observer message member with old | new
    · obtain ⟨run, ofRun, given⟩ := told.posted message old
      exact ⟨run, ofRun, Nat.lt_succ_of_lt given⟩
    · exact ⟨_, new, Nat.lt_succ_self _⟩
  reading := by
    rw [reader]
    exact told.reading
  dead ended := by
    rw [died, joiner] at ended
    rw [told.dead ended] at alive
    cases alive
  alone := by
    rw [died, joiner]
    exact told.alone
  abandoned {number job} found message got without := by
    rw [jobs, modify_jobs_eq_some] at found
    obtain ⟨old, before, rfl⟩ := found
    by_cases picked : which number = true
    · rw [if_pos picked] at got
      exact absurd (asked number old picked before) (told.abandoned before message got without)
    · rw [if_neg picked] at got ⊢
      intro now
      exact told.abandoned before message got without
        (going number old (Bool.eq_false_iff.mpr picked) before now)

theorem Told.command (inv : Inv state) {rest : List (Nat × Task)}
    (alive : state.process = some process) (commands : process.commands = (number, task) :: rest)
    (found : Bool) :
    Told (state.command process number task rest found) := by
  have first : (number, task) ∈ process.commands := commands ▸ .head _
  cases found with
  | true =>
    refine { told with runs := ?_, dead := ?_, abandoned := ?_ }
    · intro running eq entry mem
      cases eq
      exact told.runs alive entry mem
    · intro ended
      rw [told.dead ended] at alive
      cases alive
    · intro entry job present message got without now
      refine told.abandoned present message got without ⟨process, alive, ?_⟩
      obtain ⟨_, eq, place⟩ := now
      cases eq
      rcases place with command | accepted | run
      · exact .inl (commands ▸ .tail _ command)
      · rcases mem_append.mp accepted with accepted | moved
        · exact .inr (.inl accepted)
        · exact .inl (mem_singleton.mp moved ▸ first)
      · exact .inr (.inr run)
  | false =>
    refine told.serve (· == number) alive rfl ?_ rfl rfl ?_ (fun _ old => .inl old) ?_ rfl rfl rfl
    · intro entry job picked present
      obtain rfl := beq_iff_eq.mp picked
      have ofTask := inv.task_of_unserved alive (mem_append_left _ first) present
      exact ⟨process, alive, .inl (ofTask ▸ first)⟩
    · rintro entry job _ _ ⟨_, eq, place⟩
      cases eq
      exact ⟨process, alive, place.imp_left fun later => commands ▸ .tail _ later⟩
    · exact forall_mem_append.mpr ⟨fun _ => .inl, forall_mem_singleton.mpr (.inr rfl)⟩

theorem Told.begin (inv : Inv state) (alive : state.process = some process)
    (task : Task) : Told (state.begin process task) := by
  refine told.serve (fun number => process.accepted.contains (number, task)) alive rfl ?_ rfl rfl
    ?_ ?_ ?_ rfl rfl rfl
  · intro number job picked present
    have accepted : (number, task) ∈ process.accepted := by simpa using picked
    have ofTask := inv.task_of_unserved alive (mem_append_right _ accepted) present
    exact ⟨process, alive, .inr (.inl (ofTask ▸ accepted))⟩
  · rintro number job _ present ⟨_, eq, place⟩
    cases eq
    refine ⟨process, alive, place.imp_right (Or.imp mem_of_mem_filter ?_)⟩
    rintro ⟨run, ofRun, mem⟩
    refine ⟨run, ofRun, ?_⟩
    rcases mem_append.mp mem with old | new
    · exact old
    · -- no job has the number of the new run
      obtain rfl : run = state.next := congrArg Prod.snd (mem_singleton.mp new)
      exact absurd (told.numbered present ofRun) (Nat.lt_irrefl _)
  · exact forall_mem_append.mpr ⟨fun _ => .inl, forall_mem_singleton.mpr (.inr rfl)⟩
  · exact forall_mem_append.mpr ⟨fun _ => .inl, forall_mem_singleton.mpr (.inr rfl)⟩

theorem Told.post (posted : ∃ run, message.run = some run ∧ run < state.next) :
    Told (state.post message) := by
  exact { told with posted := forall_mem_append.mpr ⟨told.posted, forall_mem_singleton.mpr posted⟩ }

theorem Told.finish (alive : state.process = some process)
    (success : Bool) (going : (task, run) ∈ process.runs) :
    Told (state.finish process task run success) := by
  have posted : Told (state.post ⟨task, if success then .success else .error, some run⟩) :=
    told.post ⟨run, rfl, told.runs alive _ going⟩
  refine { posted with runs := ?_, dead := ?_, abandoned := ?_ }
  · intro running eq entry mem
    cases eq
    exact told.runs alive entry (mem_of_mem_erase mem)
  · intro ended
    rw [told.dead ended] at alive
    cases alive
  · intro number job found message got without now
    refine told.abandoned found message got without ⟨process, alive, ?_⟩
    obtain ⟨_, eq, place⟩ := now
    cases eq
    exact place.imp_right (Or.imp_right fun ⟨other, ofRun, mem⟩ =>
      ⟨other, ofRun, mem_of_mem_erase mem⟩)

theorem Told.register (number : Nat) (task : Task) :
    Told (state.register number task) := by
  have changed := told.modify (· == number) (fun job => { job with phase := .waiting })
    (fun _ => rfl) (fun _ => rfl) ?_
  · exact { changed with }
  · intro _ job _ _ message got _
    exact .inl (got.imp_right fun returned => by cases returned)

theorem Told.receive (found : state.jobs number = some job)
    (inbox : job.inbox = message :: rest) (task : Task) :
    Told (state.receive number task message rest) := by
  have only {entry : Nat} {other : Job} (picked : (entry == number) = true)
      (before : state.jobs entry = some other) : other.inbox = message :: rest := by
    rw [beq_iff_eq.mp picked, found] at before
    exact Option.some.inj before ▸ inbox
  rw [State.receive]
  split
  · have changed := told.modify (· == number)
      (fun job => { job with phase := .returned message, inbox := rest })
      (fun _ => rfl) (fun _ => rfl) ?_
    · exact { changed with }
    · intro entry other picked before about got _
      refine .inl (.inl ?_)
      rw [only picked before]
      rcases got with mem | returned
      · exact .tail _ mem
      · exact Phase.returned.inj returned ▸ .head _
  · refine told.modify (· == number) _ (fun _ => rfl) (fun _ => rfl) ?_
    intro entry other picked before about got _
    refine .inl (got.imp_left fun mem => ?_)
    rw [only picked before]
    exact .tail _ mem

theorem Told.read (inv : Inv state)
    (observer : state.observer = message :: rest) (readable : state.Readable message) :
    Told (state.read message rest) := by
  obtain ⟨run, ofRun, given⟩ := told.posted message (observer ▸ .head _)
  have later (other : Message) (mem : other ∈ rest) : other ∈ state.observer :=
    observer ▸ .tail _ mem
  have reading {active : List Task} :
      Told { state with observer := rest, active, reader := some ⟨message, 0⟩ } := by
    refine told.frame rfl rfl (.inl rfl) later (fun eq => ?_) told.dead told.alone
    cases eq
    simp [ofRun]
  rw [State.read]
  split
  · rename_i kind
    have taken : Told { state with observer := rest, active := state.active.insert message.task } :=
      told.frame rfl rfl (.inl rfl) later told.reading told.dead told.alone
    rw [State.startFake]
    split
    · rename_i alone
      simp only [Bool.and_eq_true, List.isEmpty_iff] at alone
      rw [fake_of_stored alone.1 (readable.2 kind alone.1 alone.2).1]
      have wired : Wired
          { state with observer := rest, active := state.active.insert message.task } :=
        { inv.toWired with }
      have added := taken.addJob wired
        { task := message.task, phase := .queued, inbox := [], run := message.run } rfl rfl
        fun other eq => (Option.some.inj (ofRun.symm.trans eq)) ▸ given
      exact { added with }
    · exact taken
  all_goals exact reading

theorem Told.round (delivery : Delivery)
    (known : delivery.message.run ≠ none ∨ state.process = none) :
    Told (state.round delivery).1 := by
  rw [State.round]
  split
  · exact told
  · refine told.modify (· == _) _ (fun _ => rfl) (fun _ => rfl) ?_
    intro number job _ _ message got without
    rcases got with mem | returned
    · rcases mem_append.mp mem with old | new
      · exact .inl (.inl old)
      · obtain rfl := mem_singleton.mp new
        exact .inr (known.resolve_left fun ofRun => ofRun without)
    · exact .inl (.inr returned)

theorem Told.deliver (reading : state.reader = some delivery) :
    Told { (state.round delivery).1 with reader := (state.round delivery).2 } := by
  have round := told.round delivery (.inl (told.reading reading))
  refine round.frame rfl rfl (.inl rfl) (fun _ mem => mem) (fun moved => ?_) round.dead round.alone
  rw [round_message moved]
  exact told.reading reading

theorem Told.joinDeliver (joining : state.joiner = some ⟨todo, some delivery⟩) :
    Told { (state.round delivery).1 with joiner := some ⟨todo, (state.round delivery).2⟩ } := by
  obtain ⟨gone, lives⟩ := told.joining joining
  have round := told.round delivery (.inr gone)
  refine round.frame rfl rfl (.inl rfl) (fun _ mem => mem) round.reading (fun _ => ?_)
    fun died => ?_
  · exact (round_rest state delivery).2.2.2.1.trans gone
  · exact absurd ((round_rest state delivery).2.2.2.2.1.symm.trans died) lives

omit told

/-! ### Runs -/

theorem Inv.step (inv : Inv state) (sound : Sound state label) (move : Move state label next) :
    Inv next := by
  cases move with
  | request task => exact inv.request task
  | register found queued => exact inv.register found queued (sound _ found)
  | receive found inbox => exact inv.receive found inbox
  | command found alive commands => exact inv.command alive commands found
  | begin task alive => exact inv.begin alive task
  | progress task run => exact { inv with }
  | finish task run success alive =>
    refine inv.frame rfl rfl rfl rfl ?_ fun delivery mem => .inl mem
    rw [unserved_of_process alive]
    exact List.Subperm.refl _
  | read raises idle observer =>
    obtain ⟨rfl, readable⟩ := sound
    exact inv.read (readable _ (by simp [observer]))
  | deliver reading => exact inv.deliver reading
  | stop | crash _ _ | launch _ =>
    exact inv.frame rfl rfl rfl rfl nil_subperm fun delivery mem => .inl mem
  | report active => exact { inv with }
  | joinBegin raises died idle =>
    obtain ⟨rfl, _⟩ := sound
    refine inv.frame rfl rfl rfl rfl (List.Subperm.refl _) fun delivery mem => .inl ?_
    rcases mem_deliveries.mp mem with reading | ⟨_, eq, ofLoop⟩
    · exact mem_deliveries.mpr (.inl reading)
    · cases eq
      cases ofLoop
  | joinTask joining => exact inv.joinTask
  | joinFail => cases sound
  | joinDeliver joining => exact inv.joinDeliver joining
  | joinEnd restarts joining =>
    refine inv.frame rfl rfl rfl rfl ?_ fun delivery mem => .inl ?_
    · rw [State.unserved]
      dsimp only
      split
      · rename_i alive
        split at alive
        · cases alive
          exact nil_subperm
        · rw [unserved_of_process alive]
      · exact nil_subperm
    · rcases mem_deliveries.mp mem with reading | ⟨_, absent, _⟩
      · exact mem_deliveries.mpr (.inl reading)
      · cases absent

theorem Coming.step (coming : Coming state) (inv : Inv state) (told : Told state)
    (sound : Sound state label) (move : Move state label next) : Coming next := by
  have idle (finished : state.AllUnfinished fun _ => False) {after : State}
      (jobs : after.jobs = state.jobs) : Coming after := by
    intro number job found unfinished
    rw [jobs] at found
    exact (finished.of_job inv.toWired found unfinished).elim
  cases move with
  | request task => exact coming.request inv sound task
  | register found queued => exact coming.register found queued
  | receive found inbox =>
    exact coming.receive found inbox fun terminal => sound _ found (by simp [inbox, terminal])
  | command found alive commands => exact coming.command inv alive commands found
  | begin task alive => exact coming.begin inv alive task
  | progress task run => exact coming.post _
  | finish task run success alive => exact coming.finish alive task run success
  | read raises reads observer =>
    obtain ⟨rfl, readable⟩ := sound
    exact coming.read inv reads observer (readable _ (by simp [observer]))
  | deliver reading => exact coming.deliver reading
  | stop => exact idle sound rfl
  | launch gone => exact coming.launch gone sound.1
  | crash startupError alive =>
    cases startupError with
    | true => exact idle (sound rfl) rfl
    | false => exact fun _ _ _ _ => .died rfl
  | report active =>
    intro number job found unfinished
    exact (coming found unfinished).keep (fun now => .going now) (fun _ h => h) rfl
      (fun _ _ _ h => h) rfl rfl
  | joinBegin raises died alone =>
    obtain ⟨rfl, ready⟩ := sound
    exact Coming.joinBegin inv ready
  | joinTask joining => exact coming.joinTask inv joining
  | joinFail => cases sound
  | joinDeliver joining => exact coming.joinDeliver joining
  | joinEnd restarts joining =>
    refine coming.joinEnd joining (told.joining joining).2 (fun old alive => ?_) _
    simp [alive]

theorem Told.step (told : Told state) (inv : Inv state) (sound : Sound state label)
    (move : Move state label next) : Told next := by
  cases move with
  | request task => exact told.request inv.toWired task
  | register found queued => exact told.register _ _
  | receive found inbox => exact told.receive found inbox _
  | command found alive commands => exact told.command inv alive commands found
  | begin task alive => exact told.begin inv alive task
  | progress task run alive going => exact told.post ⟨run, rfl, told.runs alive _ going⟩
  | finish task run success alive going => exact told.finish alive success going
  | read raises idle observer =>
    obtain ⟨rfl, readable⟩ := sound
    exact told.read inv observer (readable _ (by simp [observer]))
  | deliver reading => exact told.deliver reading
  | stop =>
    exact told.frame rfl rfl (.inr (.inl rfl)) (fun _ h => h) told.reading (fun _ => rfl)
      fun died => by cases died
  | launch gone =>
    have idle := isNone_iff_eq_none.mp sound.2
    refine told.frame rfl rfl (.inr (.inr rfl)) (fun _ h => h) told.reading (fun ended => ?_)
      fun died => by cases died
    simp [idle] at ended
  | crash startupError alive =>
    refine told.frame rfl rfl (.inr (.inl rfl)) (fun _ h => h) told.reading (fun _ => rfl)
      fun _ => ?_
    by_contra joining
    rw [told.dead (.inr (isSome_iff_ne_none.mpr joining))] at alive
    cases alive
  | report active => exact { told with }
  | joinBegin raises died idle =>
    exact told.frame rfl rfl (.inl rfl) (fun _ h => h) told.reading
      (fun _ => told.dead (.inl died)) fun died => by cases died
  | joinTask joining =>
    obtain ⟨gone, lives⟩ := told.joining joining
    exact told.frame rfl rfl (.inl rfl) (fun _ h => h) told.reading (fun _ => gone)
      fun died => absurd died lives
  | joinFail => cases sound
  | joinDeliver joining => exact told.joinDeliver joining
  | joinEnd restarts joining =>
    obtain ⟨gone, lives⟩ := told.joining joining
    refine told.frame rfl rfl ?_ (fun _ h => h) told.reading (fun ended => ?_) fun _ => rfl
    · cases restarts
      · exact .inl (by simp)
      · exact .inr (.inr (by simp [gone]))
    · rcases ended with died | absent
      · exact absurd died (by simp [lives])
      · cases absent

instance (state : State) : Decidable (Quiet state) :=
  inferInstanceAs (Decidable (_ = [] ∧ _ = none ∧ _ = false ∧ _ = none))

theorem kept_of_reach (reached : Reach step Sound start state) :
    Inv state ∧ Coming state ∧ Told state := by
  refine reached.invariant (P := fun state => Inv state ∧ Coming state ∧ Told state)
    ⟨.start, Coming.start, .start⟩ ?_
  intro state label next ⟨inv, coming, told⟩ sound taken
  have move := move_of_step taken
  exact ⟨inv.step sound move, coming.step inv told sound move, told.step inv sound move⟩

theorem Pending.of_quiet (pending : Pending state number job) (quiet : Quiet state) :
    job.notified = true ∨ Going state number job := by
  obtain ⟨observer, reader, alive, joiner⟩ := quiet
  cases pending with
  | going now => exact .inr now
  | posted message mem _ =>
    rw [observer] at mem
    cases mem
  | delivered delivery mem _ _ =>
    rw [State.deliveries, reader, joiner] at mem
    cases mem
  | notified told => exact .inl told
  | died gone =>
    rw [alive] at gone
    cases gone
  | joined _ joining _ _ =>
    rw [joiner] at joining
    cases joining

/-- A step of the job itself: it adds its channel, or takes a message from it. -/
def OwnStep (number : Nat) (state : State) (label : Label) : Prop :=
  Sound state label ∧ (label = .register number ∨ label = .receive number)

/-- The steps of the job alone bring it to its end. -/
def Returns (state : State) (number : Nat) : Prop :=
  ∃ after, Reach step (OwnStep number) state after ∧ ∃ message,
    (after.jobs number).map Job.phase = some (.returned message)

theorem Quiet.telling (quiet : Quiet state) : state.telling task = false := by
  simp [State.telling, State.deliveries, quiet.2.1, quiet.2.2.2]

theorem returns_of_waiting {now : State} (reached : Reach step (OwnStep number) state now)
    (found : now.jobs number = some job) (waiting : job.phase = .waiting) (quiet : Quiet now)
    (told : job.notified = true) : Returns state number := by
  induction inbox : job.inbox generalizing now job with
  | nil => simp [Job.notified, inbox] at told
  | cons message rest ih =>
    have taken : step now (.receive number) = some (now.receive number job.task message rest) := by
      simp [step, found, waiting, inbox]
    have met : Sound now (.receive number) := fun _ _ _ => quiet.telling
    have after := reached.next ⟨met, .inr rfl⟩ taken
    by_cases terminal : message.terminal = true
    · exact ⟨_, after, message, by simp [State.receive, terminal, State.modify, found]⟩
    · have left : (now.receive number job.task message rest).jobs number =
          some { job with inbox := rest } := by
        simp [State.receive, terminal, State.modify, found]
      refine ih after left waiting ?_ ?_ rfl
      · rw [State.receive, if_neg terminal]
        exact quiet
      · simpa [Job.notified, inbox, terminal] using told

theorem Quiet.returns (quiet : Quiet state) (found : state.jobs number = some job)
    (unfinished : job.finished = false) (told : job.notified = true) : Returns state number := by
  cases phase : job.phase with
  | queued =>
    have taken : step state (.register number) = some (state.register number job.task) := by
      simp [step, found, phase]
    have met : Sound state (.register number) := fun _ _ => quiet.telling
    have after : Reach step (OwnStep number) state _ := .next .start ⟨met, .inl rfl⟩ taken
    have listens : (state.register number job.task).jobs number =
        some { job with phase := .waiting } := by
      simp [State.register, State.modify, found]
    exact returns_of_waiting after listens rfl quiet told
  | waiting => exact returns_of_waiting .start found phase quiet told
  | returned message => simp [Job.finished, phase] at unfinished

/-- In a run whose steps are all sound, every job learns the outcome of the run it asked for: when
no message is under way, it has been given a message that ends its wait, and takes it by its own
steps, or its run goes on. What ends its wait is the outcome of its own run, or the error of an
abnormal termination after which the run does not go on. Messages are given to jobs of the task
they name, and jobs are started for that task. -/
theorem outcomes_learned (reached : Reach step Sound start state) :
    (∀ number job, state.jobs number = some job → (Quiet state → job.finished = false →
        job.notified = true ∧ Returns state number ∨ Going state number job) ∧
      ∀ message, job.Got message → message.task = job.task ∧ (message.terminal = true →
        (∃ run, message.run = some run ∧ job.run = some run) ∨
          message.run = none ∧ ¬ Going state number job)) ∧
    ∀ entry ∈ state.started, entry.1 = entry.2 := by
  obtain ⟨inv, coming, told⟩ := kept_of_reach reached
  refine ⟨fun number job found => ⟨fun quiet unfinished => ?_, fun message got => ?_⟩, inv.started⟩
  · exact ((coming found unfinished).of_quiet quiet).imp_left fun notified =>
      ⟨notified, quiet.returns found unfinished notified⟩
  · obtain ⟨ofTask, ofRun⟩ := inv.fits found message got
    refine ⟨ofTask, fun terminal => ?_⟩
    cases run : message.run with
    | none => exact .inr ⟨rfl, told.abandoned found message got run⟩
    | some number =>
      rcases ofRun terminal with same | absent
      · exact .inl ⟨number, rfl, same.symm.trans run⟩
      · rw [run] at absent
        cases absent

/-- A replication that succeeds, and a snapshot whose process dies before it begins. -/
theorem outcomes_learned_crash : ∃ state, Reach step Sound start state ∧
      (state.jobs 0).map Job.phase = some (.returned ⟨.replication 3, .success, some 1⟩) ∧
      (state.jobs 2).map Job.phase = some (.returned ⟨.snapshot 5, .error, none⟩) ∧
      ((∀ number job, state.jobs number = some job → (Quiet state → job.finished = false →
          job.notified = true ∧ Returns state number ∨ Going state number job) ∧
        ∀ message, job.Got message → message.task = job.task ∧ (message.terminal = true →
          (∃ run, message.run = some run ∧ job.run = some run) ∨
            message.run = none ∧ ¬ Going state number job)) ∧
      ∀ entry ∈ state.started, entry.1 = entry.2) := by
  exact exists_reach_of_run (P := fun state =>
      (state.jobs 0).map Job.phase = some (.returned ⟨.replication 3, .success, some 1⟩) ∧
      (state.jobs 2).map Job.phase = some (.returned ⟨.snapshot 5, .error, none⟩))
    [.launch, .request (.replication 3), .register 0, .command true, .begin (.replication 3),
      .read false, .progress (.replication 3) 1, .finish (.replication 3) 1 true, .read false,
      .deliver, .deliver, .receive 0, .read false, .deliver, .deliver, .receive 0,
      .request (.snapshot 5), .register 2, .report [.snapshot 5], .crash false,
      .joinBegin false, .joinTask false, .joinDeliver, .joinDeliver, .joinEnd true, .receive 2]
    (by decide +kernel) fun state reached ⟨success, crashed⟩ =>
      ⟨success, crashed, outcomes_learned reached⟩

/-- A snapshot that is taken before its job has a channel: the job waits, and nothing is under way
or to be done. And a job that is started for another task than the one that runs. -/
theorem outcome_lost :
    (∃ state job, Reach step Always start state ∧ state.jobs 0 = some job ∧ Quiet state ∧
      job.finished = false ∧ job.notified = false ∧ ¬ Going state 0 job) ∧
    ∃ state, Reach step Always start state ∧ (.onetime 12, .replication 2) ∈ state.started := by
  constructor
  · have run : (exec step Always start
        [.launch, .request (.snapshot 5), .command true, .begin (.snapshot 5), .read false,
          .finish (.snapshot 5) 1 true, .read false, .deliver, .register 0]).any fun state =>
        decide (Quiet state ∧ (∃ job ∈ state.jobs 0, job.finished = false ∧ job.notified = false) ∧
          ∃ process ∈ state.process,
            process.commands = [] ∧ process.accepted = [] ∧ process.runs = []) := by
      decide +kernel
    obtain ⟨state, reached, quiet, ⟨job, found, waiting⟩, process, alive, empty⟩ :=
      exists_reach_of_exec _ run
    refine ⟨state, job, reached, found, quiet, waiting.1, waiting.2, ?_⟩
    rintro ⟨other, same, place⟩
    cases alive.symm.trans same
    simp [empty] at place
  · apply exists_reach_of_exec
      [.launch, .request (.onetime 12), .command true, .begin (.onetime 12), .read false]
    decide +kernel

end TruenasMiddleware.Zettarepl
