import TruenasMiddleware.Jobs.Lifecycle

/-! The audit records of calls that are served by jobs. `call_with_audit` leaves
the record of such a call to the job's `on_finish_cb`. A job has one slot for it,
and `add` may answer a later call with a job that is still queued, whose slot the
later call then takes over. -/

namespace TruenasMiddleware.Jobs

open Transition List

namespace JobsQueue

variable (q : JobsQueue)

def records (c : CallRef) : Nat := q.audit.countP fun record => record.call = c

def slotAudited (j : JobRef) : Bool :=
  match (q.jobs j).onFinishCb with
  | none => false
  | some c => (q.calls c).any fun call => call.info.audited

def slotMessages (j : JobRef) : List String :=
  match (q.jobs j).onFinishCb with
  | none => []
  | some c => messagesOf (q.jobs j) c

/-- The limit of the job's lock is reached, and the queued job that the call is
answered with has a slot that an audited call needs. -/
def overwrites (job : Job) : Bool :=
  match job.spec.getLockName with
  | .error _ => false
  | .ok name =>
    match ((q.alloc job).handleLock q.jobCount name).admission q.jobCount with
    | .coalesce k => q.slotAudited k && (decide (job.messageIds = []) || (q.jobs k).spec.encodes)
    | .append | .reject _ => false

end JobsQueue

variable (q : JobsQueue)

/-- The arguments of an audited call can be dumped, the step overwrites no slot that is
still needed, and where it runs the callback of an audited call, nothing raises and the
job's method has passed at most one message to `audit_callback`. -/
def Attributed : Label → Prop
  | .submit spec (some info) =>
    (info.audited = true → spec.encodes = true) ∧
      q.overwrites (submitted q spec (some info)) = false
  | .run j outcome => (q.jobs j).pc = .onFinish → q.slotAudited j = true →
      outcome = none ∧ (q.slotMessages j).length ≤ 1
  | _ => True

instance : (a : Label) → Decidable (Attributed q a)
  | .submit spec (some info) =>
    inferInstanceAs (Decidable ((info.audited = true → spec.encodes = true) ∧
      q.overwrites (submitted q spec (some info)) = false))
  | .run j outcome => inferInstanceAs (Decidable ((q.jobs j).pc = .onFinish →
      q.slotAudited j = true → outcome = none ∧ (q.slotMessages j).length ≤ 1))
  | .submit _ none | .next | .abort _ | .abortLine .. => .isTrue trivial

def Job.reported (job : Job) : Bool := job.finished && decide (job.pc ≠ .onFinish)

structure AuditInv : Prop where
  fresh : ∀ c, q.callCount ≤ c → q.calls c = none ∧ q.records c = 0
  encodes : ∀ c call, q.calls c = some call → call.info.audited = true → call.encodes = true
  known : ∀ c call j, q.calls c = some call → call.job = some j → j < q.jobCount
  slot : ∀ j c, (q.jobs j).onFinishCb = some c → ∃ call, q.calls c = some call ∧ call.job = some j
  served : ∀ c call j, q.calls c = some call → call.job = some j → call.info.audited = true →
    (q.jobs j).onFinishCb = some c
  uncalled : ∀ j, (q.jobs j).pc = .notStarted → (q.jobs j).onFinishCbCalled = false
  refused : ∀ c call, q.calls c = some call → call.job = none → call.info.audited = true →
    q.records c = 1
  counted : ∀ c call j, q.calls c = some call → call.job = some j → call.info.audited = true →
    q.records c = if (q.jobs j).reported then 1 else 0

structure SameLog (q q' : JobsQueue) : Prop where
  calls : q'.calls = q.calls
  callCount : q'.callCount = q.callCount
  audit : q'.audit = q.audit
  jobCount : q.jobCount ≤ q'.jobCount

namespace SameLog

variable {q r s : JobsQueue}

theorem trans (first : SameLog q r) (second : SameLog r s) : SameLog q s :=
  ⟨second.calls.trans first.calls, second.callCount.trans first.callCount,
    second.audit.trans first.audit, first.jobCount.trans second.jobCount⟩

theorem handleLock (q : JobsQueue) (j : JobRef) (name : Option String) :
    SameLog q (q.handleLock j name) := by
  cases name with
  | none => exact ⟨rfl, rfl, rfl, le_refl _⟩
  | some name =>
    have registered : SameLog q (q.registerLock name).1 := by
      unfold JobsQueue.registerLock
      split <;> exact ⟨rfl, rfl, rfl, le_refl _⟩
    exact { registered with }

theorem append (q : JobsQueue) (j : JobRef) : SameLog q (q.append j) := by
  have evicted : ∀ r : JobsQueue, SameLog r r.evict := fun r => by
    obtain ⟨_, result⟩ := r.evict_rest
    rw [result]
    exact ⟨rfl, rfl, rfl, le_refl _⟩
  obtain ⟨calls, callCount, audit, jobCount⟩ := evicted
    { q.setJob j (fun job => { job with id := some (q.count + 1) }) with count := q.count + 1 }
  exact ⟨calls, callCount, audit, jobCount⟩

theorem enqueue (q : JobsQueue) (j : JobRef) : SameLog q (q.enqueue j).1 := by
  obtain ⟨calls, callCount, audit, jobCount⟩ := append q j
  unfold JobsQueue.enqueue
  split
  · exact ⟨rfl, rfl, rfl, le_refl _⟩
  · dsimp only
    split_ifs <;> exact ⟨rfl, rfl, rfl, le_refl _⟩
  · dsimp only
    split_ifs <;> exact ⟨calls, callCount, audit, jobCount⟩

theorem add (q : JobsQueue) (job : Job) : SameLog q (q.add job).1 := by
  have allocated : SameLog q (q.alloc job) := ⟨rfl, rfl, rfl, Nat.le_succ _⟩
  unfold JobsQueue.add
  split
  · exact allocated
  · rename_i name _
    exact (allocated.trans (handleLock _ _ name)).trans (enqueue _ _)

theorem next (inv : LockInv q) (taken : q.next = some r) : SameLog q r := by
  obtain ⟨-, ⟨j, -, rfl⟩ | ⟨-, rfl⟩⟩ := inv.next_cases taken
  · unfold JobsQueue.take
    split
    · exact ⟨rfl, rfl, rfl, le_refl _⟩
    · split <;> exact ⟨rfl, rfl, rfl, le_refl _⟩
  · exact ⟨rfl, rfl, rfl, le_refl _⟩

end SameLog

namespace Job

theorem outsideTry_reported {job : Job} (outcome : Option Raised) (next : RunPc)
    (finished : job.finished = true) (later : next ≠ .onFinish) :
    (job.outsideTry outcome next).reported = true := by
  cases outcome <;> simp [reported, outsideTry, record, finished, later]

theorem runLine_finished (job : Job) (outcome : Option Raised) (pc : job.pc ≠ .setFinished) :
    (job.runLine outcome).finished = job.finished := by
  have state : ∀ state next failed, (job.setStateThen state next failed).finished = job.finished :=
    fun state next failed => by
      unfold setStateThen setState
      split_ifs <;> rfl
  have tried : ∀ next, (job.inTry outcome next).finished = job.finished := fun _ => by
    cases outcome <;> rfl
  have untried : ∀ next, (job.outsideTry outcome next).finished = job.finished := fun _ => by
    cases outcome <;> rfl
  cases line : job.pc <;> simp only [runLine, line]
  case setFinished => exact absurd line pc
  case startLogging | closeLogs =>
    split_ifs
    · exact untried _
    · rfl
  case checkAborted => split_ifs <;> rfl
  case setRunning | setSuccess => exact state _ _ _
  case handler e => cases e <;> first | exact state _ _ _ | rfl
  case recordFailure => cases outcome <;> rfl
  case closePipes | sendFinished => exact untried _
  case sendRunning | bodyPending | bodyStarted | progress => exact tried _

theorem runLine_reported {job : Job} (phase : job.Phase) (outcome : Option Raised)
    (plain : job.pc.plain = true) : (job.runLine outcome).reported = job.reported := by
  cases finished : job.finished with
  | false =>
    by_cases pc : job.pc = .setFinished
    · simp [reported, runLine, pc, finished]
    · simp [reported, runLine_finished job outcome pc, finished]
  | true =>
    -- only one plain line is left behind `_finished.set()`
    cases pc : job.pc <;> simp [pc, RunPc.plain, Phase, finished] at plain phase
    simp only [runLine, pc]
    rw [outsideTry_reported outcome _ finished (by simp)]
    simp [reported, finished, pc]

end Job

section

variable {q r q' : JobsQueue} {j k : JobRef} {outcome : Option Raised}

theorem AuditInv.slot_fresh (inv : AuditInv q) (fresh : q.jobCount ≤ j) :
    (q.jobs j).onFinishCb = none := by
  cases slot : (q.jobs j).onFinishCb with
  | none => rfl
  | some c =>
    obtain ⟨call, made, serves⟩ := inv.slot j c slot
    exact absurd (inv.known c call j made serves) (not_lt.mpr fresh)

theorem AuditInv.quiet (inv : AuditInv q) (log : SameLog q r)
    (slot : ∀ j, (r.jobs j).onFinishCb = (q.jobs j).onFinishCb)
    (reported : ∀ j, j < q.jobCount → (r.jobs j).reported = (q.jobs j).reported)
    (uncalled : ∀ j, (r.jobs j).pc = .notStarted → (r.jobs j).onFinishCbCalled = false) :
    AuditInv r where
  fresh c later := by
    rw [log.callCount] at later
    simpa only [log.calls, JobsQueue.records, log.audit] using inv.fresh c later
  encodes c call made := inv.encodes c call (log.calls ▸ made)
  known c call j made serves := by
    rw [log.calls] at made
    exact (inv.known c call j made serves).trans_le log.jobCount
  slot j c set := by
    rw [slot] at set
    rw [log.calls]
    exact inv.slot j c set
  served c call j made serves audited := by
    rw [log.calls] at made
    rw [slot]
    exact inv.served c call j made serves audited
  uncalled := uncalled
  refused c call made serves audited := by
    rw [log.calls] at made
    simpa only [JobsQueue.records, log.audit] using inv.refused c call made serves audited
  counted c call j made serves audited := by
    rw [log.calls] at made
    rw [reported j (inv.known c call j made serves)]
    simpa only [JobsQueue.records, log.audit] using inv.counted c call j made serves audited

theorem JobStep.quiet {a : Label} {job : Job} (inv : AuditInv q)
    (phase : (q.jobs k).Phase) (taken : JobStep q k a job)
    (call : ∀ spec info, a ≠ .submit spec (some info))
    (callback : ∀ outcome, a = .run k outcome → (q.jobs k).pc ≠ .onFinish) :
    job.onFinishCb = (q.jobs k).onFinishCb ∧ (k < q.jobCount → job.reported = (q.jobs k).reported) ∧
      (job.pc = .notStarted → job.onFinishCbCalled = false) := by
  cases taken with
  | kept eq =>
    obtain ⟨_, _, rfl⟩ := eq
    exact ⟨rfl, fun _ => rfl, inv.uncalled k⟩
  | attached spec info eq => exact absurd rfl (call spec info)
  | created spec info lock fresh _ unaudited =>
    cases info with
    | some info => exact absurd rfl (call spec info)
    | none =>
      obtain ⟨_, _, rfl⟩ := unaudited rfl
      exact ⟨(inv.slot_fresh fresh.ge).symm, fun known => absurd fresh known.ne, fun _ => rfl⟩
  | handOut waiting =>
    exact ⟨rfl, fun _ => by simp [Job.reported, waiting], by simp⟩
  | line outcome plain =>
    refine ⟨?_, fun _ => Job.runLine_reported phase outcome plain, fun early => ?_⟩
    · obtain ⟨_, _, _, _, _, _, _, eq⟩ := Job.runLine_ran (q.jobs k) outcome
      rw [eq]
    · have started := (Job.runLine_sameJob (q.jobs k) outcome).started.mp early
      simp [started, RunPc.plain] at plain
  | release outcome pc | cleanup outcome pc =>
    exact ⟨rfl, fun _ => by simp [Job.reported, pc], by simp⟩
  | onFinish outcome raised pc eq => exact absurd pc (callback outcome rfl)
  | abort => exact ⟨rfl, fun _ => rfl, inv.uncalled k⟩
  | abortLine i aborted =>
    obtain ⟨_, _, _, rfl⟩ := Job.abortLine_rest aborted
    exact ⟨rfl, fun _ => rfl, inv.uncalled k⟩

theorem records_logAudit (q : JobsQueue) (c d : CallRef) (call : Call)
    (messages : List String) (success : Bool) :
    (q.logAudit c call messages success).records d =
      q.records d + if d = c then (call.audits messages).length else 0 := by
  simp only [JobsQueue.records, JobsQueue.logAudit, countP_append, countP_map]
  congr 1
  by_cases eq : d = c
  · subst eq
    simp
  · simp [eq, Ne.symm eq]

theorem audits_length {call : Call} {messages : List String}
    (audited : call.info.audited = true) (encodes : call.encodes = true)
    (few : messages.length ≤ 1) : (call.audits messages).length = 1 := by
  rw [Call.audits, if_pos encodes, AuditInfo.audits, if_pos audited]
  split_ifs with none
  · split <;> rfl
  · rw [length_map]
    have some := length_pos_iff.mpr none
    omega

/-- The callback of a job logs for the call in its slot and changes nothing else
that the audit depends on. -/
structure Called (q r : JobsQueue) (j : JobRef) (outcome : Option Raised) : Prop where
  calls : r.calls = q.calls
  callCount : r.callCount = q.callCount
  slot : (r.jobs j).onFinishCb = (q.jobs j).onFinishCb
  log : r.audit = q.audit ∧ (∀ c call, (q.jobs j).onFinishCb = some c → outcome = none →
      q.calls c ≠ some call) ∨
    ∃ c call success, (q.jobs j).onFinishCb = some c ∧ q.calls c = some call ∧
      r.audit = (q.logAudit c call (JobsQueue.messagesOf (q.jobs j) c) success).audit

theorem callOnFinishCb_called (q : JobsQueue) (j : JobRef) (outcome : Option Raised) :
    Called q (q.callOnFinishCb j outcome).1 j outcome := by
  unfold JobsQueue.callOnFinishCb
  dsimp only
  split
  · rename_i empty
    exact ⟨rfl, rfl, by simp [JobsQueue.setJob], .inl ⟨rfl, by simp [empty]⟩⟩
  · rename_i c slot
    unfold JobsQueue.jobOnFinishCb
    split
    · rename_i unknown
      refine ⟨rfl, rfl, by simp [JobsQueue.setJob], .inl ⟨rfl, ?_⟩⟩
      rintro _ call slot' - made
      cases slot.symm.trans slot'
      cases unknown.symm.trans made
    · rename_i call made
      exact ⟨rfl, rfl, by simp [JobsQueue.setJob, JobsQueue.logAudit],
        .inr ⟨c, call, _, slot, made, rfl⟩⟩
  · split_ifs
    · exact ⟨rfl, rfl, by simp [JobsQueue.setJob], .inl ⟨rfl, by simp⟩⟩
    · exact ⟨rfl, rfl, rfl, .inl ⟨rfl, by simp⟩⟩

theorem Called.records_other (called : Called q r j outcome) {d : CallRef}
    (other : ∀ c call, (q.jobs j).onFinishCb = some c → q.calls c = some call → d ≠ c) :
    r.records d = q.records d := by
  obtain ⟨log, -⟩ | ⟨c, call, success, slot, made, log⟩ := called.log
  · rw [JobsQueue.records, log]
    rfl
  · have logged := records_logAudit q c d call (JobsQueue.messagesOf (q.jobs j) c) success
    rw [if_neg (other c call slot made)] at logged
    rw [JobsQueue.records, log]
    exact logged

theorem Called.records (called : Called q r j outcome) (inv : AuditInv q)
    (attributed : q.slotAudited j = true → outcome = none ∧ (q.slotMessages j).length ≤ 1)
    {d : CallRef} {call : Call} (made : q.calls d = some call)
    (audited : call.info.audited = true) :
    r.records d = q.records d + if call.job = some j then 1 else 0 := by
  split_ifs with serves
  · have slot := inv.served d call j made serves audited
    obtain ⟨rfl, few⟩ := attributed (by simp [JobsQueue.slotAudited, slot, made, audited])
    simp only [JobsQueue.slotMessages, slot] at few
    obtain ⟨-, silent⟩ | ⟨c, call', success, slot', made', log⟩ := called.log
    · exact absurd made (silent d call slot rfl)
    · cases slot.symm.trans slot'
      cases made.symm.trans made'
      have logged := records_logAudit q d d call (JobsQueue.messagesOf (q.jobs j) d) success
      rw [if_pos rfl, audits_length audited (inv.encodes d call made audited) few] at logged
      rw [← logged, JobsQueue.records, log]
      rfl
  · refine called.records_other ?_
    rintro _ _ slot - rfl
    obtain ⟨call', made', serves'⟩ := inv.slot j d slot
    cases made.symm.trans made'
    exact serves serves'

theorem Called.records_fresh (called : Called q r j outcome) (inv : AuditInv q) {d : CallRef}
    (later : q.callCount ≤ d) : r.records d = 0 := by
  obtain ⟨unknown, none⟩ := inv.fresh d later
  refine (called.records_other ?_).trans none
  rintro _ _ - made rfl
  cases unknown.symm.trans made

theorem AuditInv.onFinish (inv : AuditInv q) (phase : (q.jobs j).Phase)
    (pc : (q.jobs j).pc = .onFinish)
    (attributed : q.slotAudited j = true → outcome = none ∧ (q.slotMessages j).length ≤ 1) :
    AuditInv ((q.callOnFinishCb j outcome).1.setJob j
      (·.outsideTry (q.callOnFinishCb j outcome).2 .sendFinished)) := by
  have called := callOnFinishCb_called q j outcome
  have same := SameQueue.callOnFinishCb q j outcome
  have others : ∀ k, k ≠ j → (q.callOnFinishCb j outcome).1.jobs k = q.jobs k := fun k =>
    SameQueue.callOnFinishCb_other q outcome
  generalize (q.callOnFinishCb j outcome).2 = raised
  generalize (q.callOnFinishCb j outcome).1 = r at called same others ⊢
  have finished : (r.jobs j).finished = true := by
    simp only [Job.Phase, pc] at phase
    obtain ⟨_, _, _, _, kept⟩ := same.job j
    rw [kept]
    exact phase.2.2
  have own : (r.setJob j (·.outsideTry raised .sendFinished)).jobs j =
      (r.jobs j).outsideTry raised .sendFinished := by
    simp [JobsQueue.setJob]
  have other : ∀ k, k ≠ j →
      (r.setJob j (·.outsideTry raised .sendFinished)).jobs k = q.jobs k := fun k different => by
    simp [JobsQueue.setJob, different, others k different]
  have slot : ∀ k, ((r.setJob j (·.outsideTry raised .sendFinished)).jobs k).onFinishCb =
      (q.jobs k).onFinishCb := fun k => by
    by_cases same : k = j
    · rw [same, own, ← called.slot]
      cases raised <;> rfl
    · rw [other k same]
  refine ⟨?_, ?_, ?_, ?_, ?_, ?_, ?_, ?_⟩
  · intro c later
    change r.callCount ≤ c at later
    rw [called.callCount] at later
    exact ⟨(congrFun called.calls c).trans (inv.fresh c later).1, called.records_fresh inv later⟩
  · exact fun c call made => inv.encodes c call ((congrFun called.calls c).symm.trans made)
  · intro c call k made serves
    change k < r.jobCount
    rw [same.jobCount]
    exact inv.known c call k ((congrFun called.calls c).symm.trans made) serves
  · intro k c set
    obtain ⟨call, made, serves⟩ := inv.slot k c ((slot k).symm.trans set)
    exact ⟨call, (congrFun called.calls c).trans made, serves⟩
  · intro c call k made serves audited
    exact (slot k).trans
      (inv.served c call k ((congrFun called.calls c).symm.trans made) serves audited)
  · intro k early
    by_cases same : k = j
    · rw [same, own] at early
      cases raised <;> cases early
    · rw [other k same] at early ⊢
      exact inv.uncalled k early
  · intro c call made serves audited
    have before := (congrFun called.calls c).symm.trans made
    have counted := called.records inv attributed before audited
    rw [serves, if_neg (by simp), inv.refused c call before serves audited] at counted
    exact counted
  · intro c call k made serves audited
    have before := (congrFun called.calls c).symm.trans made
    have counted := called.records inv attributed before audited
    rw [serves, inv.counted c call k before serves audited] at counted
    refine Eq.trans counted ?_
    by_cases same : k = j
    · rw [same, own, Job.outsideTry_reported raised _ finished (by simp)]
      simp [Job.reported, pc]
    · simp [other k same, same]

theorem coalesce_queued (admitted : q.admission j = .coalesce k) : k ∈ q.queue := by
  have mem := List.mem_of_find?_eq_some (joinable_of_coalesce admitted)
  rw [mem_reverse] at mem
  exact (mem_filter.mp mem).1

theorem handleLock_messageIds (q : JobsQueue) (j : JobRef) (name : Option String) :
    ((q.handleLock j name).jobs j).messageIds = (q.jobs j).messageIds := by
  cases name with
  | none => rfl
  | some name =>
    have jobs : (q.registerLock name).1.jobs = q.jobs := by
      unfold JobsQueue.registerLock
      split <;> rfl
    simp [JobsQueue.handleLock, JobsQueue.setJob, JobsQueue.setLock, jobs]

theorem add_result {job : Job} (inv : LockInv q) (lock : job.lock = none)
    (handedOut : job.handedOut = false) (pc : job.pc = .notStarted)
    (added : (q.add job).2 = .ok j) :
    j = q.jobCount ∨ j ∈ q.queue ∧ (q.slotAudited j = true → q.overwrites job = true) := by
  cases named : job.spec.getLockName with
  | error e => simp [JobsQueue.add, named] at added
  | ok name =>
    obtain ⟨prepared, -⟩ := inv.handleLock lock handedOut pc named
    have messageIds : (((q.alloc job).handleLock q.jobCount name).jobs q.jobCount).messageIds =
        job.messageIds := by
      rw [handleLock_messageIds]
      simp [JobsQueue.alloc]
    simp only [JobsQueue.add, named] at added
    simp only [JobsQueue.overwrites, named]
    generalize (q.alloc job).handleLock q.jobCount name = s at prepared added messageIds ⊢
    cases admitted : s.admission q.jobCount with
    | reject e => simp [JobsQueue.enqueue, admitted] at added
    | coalesce k =>
      have queued : k ∈ q.queue := prepared.queue ▸ coalesce_queued admitted
      have spec := (prepared.other k (inv.ne_fresh (.inl queued))).sameJob.spec
      simp only [JobsQueue.enqueue, admitted, messageIds] at added
      split_ifs at added with silent encodes
      · obtain rfl := Except.ok.inj added
        exact .inr ⟨queued, fun slot => by simp [slot, silent]⟩
      · obtain rfl := Except.ok.inj added
        have kept : (q.jobs k).spec.encodes = true := by
          rw [← spec]
          simpa [JobsQueue.setJob] using encodes
        exact .inr ⟨queued, fun slot => by simp [slot, kept]⟩
    | append =>
      simp only [JobsQueue.enqueue, admitted] at added
      split_ifs at added
      exact .inl (Except.ok.inj added).symm

theorem AuditInv.add (inv : AuditInv q) (locks : LockInv q) (spec : JobSpec)
    (info : Option AuditInfo) : AuditInv (q.add (submitted q spec info)).1 := by
  have job := add_job locks spec info
  refine inv.quiet (SameLog.add q _) (fun k => ?_) (fun k known => ?_) (fun k early => ?_)
  · obtain ⟨-, _, _, same⟩ | ⟨rfl, _, _, _, same⟩ := job k
    · rw [same]
    · rw [same, inv.slot_fresh (le_refl _)]
      rfl
  · obtain ⟨-, _, _, same⟩ | ⟨rfl, -⟩ := job k
    · rw [same]
      rfl
    · exact absurd rfl known.ne
  · obtain ⟨-, _, _, same⟩ | ⟨rfl, _, _, _, same⟩ := job k
    · rw [same] at early ⊢
      exact inv.uncalled k early
    · rw [same]
      rfl

section Record

variable {call : Call} {c : CallRef} {other : Call}

theorem recordCall_cases (made : (q.recordCall call).calls c = some other) :
    c = q.callCount ∧ other = call ∨ c ≠ q.callCount ∧ q.calls c = some other := by
  by_cases new : c = q.callCount
  · left
    rw [new] at made
    exact ⟨new, by simpa [JobsQueue.recordCall] using made.symm⟩
  · right
    exact ⟨new, by simpa [JobsQueue.recordCall, new] using made⟩

theorem AuditInv.recordCall_known (inv : AuditInv q)
    (made : q.calls c = some other) : (q.recordCall call).calls c = some other := by
  have old : c ≠ q.callCount := by
    rintro rfl
    cases (inv.fresh q.callCount (le_refl _)).1.symm.trans made
  simpa [JobsQueue.recordCall, old] using made

theorem AuditInv.recordCall_encodes (inv : AuditInv q)
    (encodes : call.info.audited = true → call.encodes = true) (c : CallRef) (other : Call)
    (made : (q.recordCall call).calls c = some other) (audited : other.info.audited = true) :
    other.encodes = true := by
  rcases recordCall_cases made with ⟨-, rfl⟩ | ⟨-, made⟩
  · exact encodes audited
  · exact inv.encodes c other made audited

theorem AuditInv.recordCall_fresh (inv : AuditInv q)
    (later : q.callCount + 1 ≤ c) : c ≠ q.callCount ∧ (q.recordCall call).calls c = none ∧
      q.records c = 0 := by
  have other : c ≠ q.callCount := (Nat.lt_of_succ_le later).ne'
  obtain ⟨unknown, none⟩ := inv.fresh c (Nat.le_of_succ_le later)
  exact ⟨other, by simpa [JobsQueue.recordCall, other] using unknown, none⟩

end Record

variable (inv : AuditInv q)
include inv

theorem AuditInv.refuse {call : Call} (unserved : call.job = none)
    (encodes : call.info.audited = true → call.encodes = true) :
    AuditInv ((q.recordCall call).logAudit q.callCount call [] false) := by
  have records := fun d => records_logAudit (q.recordCall call) q.callCount d call [] false
  have before : ∀ d, (q.recordCall call).records d = q.records d := fun _ => rfl
  refine ⟨?_, inv.recordCall_encodes encodes, ?_, ?_, ?_, inv.uncalled, ?_, ?_⟩
  · intro c later
    obtain ⟨other, unknown, none⟩ := inv.recordCall_fresh later
    rw [records, before, if_neg other]
    exact ⟨unknown, none⟩
  · intro c call j made serves
    rcases recordCall_cases made with ⟨-, rfl⟩ | ⟨-, made⟩
    · cases unserved.symm.trans serves
    · exact inv.known c call j made serves
  · intro j c set
    obtain ⟨call, made, serves⟩ := inv.slot j c set
    exact ⟨call, inv.recordCall_known made, serves⟩
  · intro c call j made serves audited
    rcases recordCall_cases made with ⟨-, rfl⟩ | ⟨-, made⟩
    · cases unserved.symm.trans serves
    · exact inv.served c call j made serves audited
  · intro c call made serves audited
    rw [records, before]
    rcases recordCall_cases made with ⟨new, rfl⟩ | ⟨old, made⟩
    · rw [if_pos new, audits_length audited (encodes audited) (by simp), (inv.fresh c new.ge).2]
    · rw [if_neg old, inv.refused c call made serves audited]
  · intro c call j made serves audited
    rw [records, before]
    rcases recordCall_cases made with ⟨-, rfl⟩ | ⟨old, made⟩
    · cases unserved.symm.trans serves
    · rw [if_neg old, inv.counted c call j made serves audited]
      rfl

theorem AuditInv.setOnFinishCb_eq (call : Call) (idle : (q.jobs j).pc = .notStarted) :
    (q.recordCall call).setOnFinishCb j q.callCount =
      (q.recordCall call).setJob j fun job => { job with onFinishCb := some q.callCount } := by
  unfold JobsQueue.setOnFinishCb
  dsimp only
  rw [if_neg]
  simp [JobsQueue.setJob, JobsQueue.recordCall, inv.uncalled j idle]

theorem AuditInv.attach {new : Call} (serving : new.job = some j)
    (encodes : new.info.audited = true → new.encodes = true) (known : j < q.jobCount)
    (idle : (q.jobs j).pc = .notStarted) (unfinished : (q.jobs j).finished = false)
    (free : q.slotAudited j = false) :
    AuditInv ((q.recordCall new).setOnFinishCb j q.callCount) := by
  rw [inv.setOnFinishCb_eq _ idle]
  have own : ((q.recordCall new).setJob j fun job =>
      { job with onFinishCb := some q.callCount }).jobs j =
        { q.jobs j with onFinishCb := some q.callCount } := by
    simp [JobsQueue.setJob, JobsQueue.recordCall]
  have other : ∀ k, k ≠ j → ((q.recordCall new).setJob j fun job =>
      { job with onFinishCb := some q.callCount }).jobs k = q.jobs k := fun k different => by
    simp [JobsQueue.setJob, JobsQueue.recordCall, different]
  -- no audited call is served by a job whose slot is free
  have elsewhere : ∀ c call k, q.calls c = some call → call.job = some k →
      call.info.audited = true → k ≠ j := by
    rintro c call k made serves audited rfl
    simp [JobsQueue.slotAudited, inv.served c call k made serves audited, made, audited] at free
  refine ⟨?_, inv.recordCall_encodes encodes, ?_, ?_, ?_, ?_, ?_, ?_⟩
  · intro c later
    exact (inv.recordCall_fresh later).2
  · intro c call k made serves
    rcases recordCall_cases made with ⟨-, rfl⟩ | ⟨-, made⟩
    · cases serving.symm.trans serves
      exact known
    · exact inv.known c call k made serves
  · intro k c set
    by_cases eq : k = j
    · rw [eq, own] at set
      cases set
      exact ⟨new, by simp [JobsQueue.setJob, JobsQueue.recordCall], eq ▸ serving⟩
    · rw [other k eq] at set
      obtain ⟨call, made, serves⟩ := inv.slot k c set
      exact ⟨call, inv.recordCall_known made, serves⟩
  · intro c call k made serves audited
    rcases recordCall_cases made with ⟨last, rfl⟩ | ⟨-, made⟩
    · cases serving.symm.trans serves
      rw [own, last]
    · rw [other k (elsewhere c call k made serves audited)]
      exact inv.served c call k made serves audited
  · intro k early
    by_cases eq : k = j
    · rw [eq, own]
      exact inv.uncalled j idle
    · rw [other k eq] at early ⊢
      exact inv.uncalled k early
  · intro c call made serves audited
    rcases recordCall_cases made with ⟨-, rfl⟩ | ⟨-, made⟩
    · cases serving.symm.trans serves
    · exact inv.refused c call made serves audited
  · intro c call k made serves audited
    rcases recordCall_cases made with ⟨last, rfl⟩ | ⟨-, made⟩
    · cases serving.symm.trans serves
      refine (inv.fresh c last.ge).2.trans ?_
      simp [own, Job.reported, unfinished]
    · rw [other k (elsewhere c call k made serves audited)]
      exact inv.counted c call k made serves audited

omit inv in
theorem add_idle (locks : LockInv q) (phase : ∀ k, (q.jobs k).Phase) (spec : JobSpec)
    (info : Option AuditInfo) (j : JobRef) (added : (q.add (submitted q spec info)).2 = .ok j) :
    j < (q.add (submitted q spec info)).1.jobCount ∧
      ((q.add (submitted q spec info)).1.jobs j).pc = .notStarted ∧
      ((q.add (submitted q spec info)).1.jobs j).finished = false := by
  have jobCount : (q.add (submitted q spec info)).1.jobCount = q.jobCount + 1 := by
    have cases : AddResult q (submitted q spec info) _ := locks.add_cases rfl rfl rfl
    obtain prepared | ⟨s, prepared, -, event, result, -⟩ := cases
    · exact prepared.jobCount
    · rw [result]
      exact (SameQueue.dequeAdd s q.jobCount).jobCount.trans prepared.jobCount
  rw [jobCount]
  obtain ⟨other, _, _, same⟩ | ⟨rfl, _, _, _, same⟩ := add_job locks spec info j
  · obtain ⟨known, -, idle⟩ :=
      locks.queued j ((add_result locks rfl rfl rfl added).resolve_left other).1
    have unfinished := phase j
    simp only [Job.Phase, idle] at unfinished
    rw [same]
    exact ⟨known.trans (Nat.lt_succ_self _), idle, unfinished.1⟩
  · rw [same]
    exact ⟨Nat.lt_succ_self _, rfl, rfl⟩

theorem AuditInv.callWithAudit (locks : LockInv q)
    (phase : ∀ k, (q.jobs k).Phase) (spec : JobSpec) (info : AuditInfo)
    (attributed : Attributed q (.submit spec (some info))) :
    AuditInv (q.callWithAudit spec info) := by
  obtain ⟨encodes, kept⟩ := attributed
  have added := inv.add locks spec (some info)
  have log := SameLog.add q (submitted q spec (some info))
  have idle := add_idle locks phase spec (some info)
  have job := add_job locks spec (some info)
  have answered := fun j =>
    add_result (j := j) locks (rfl : (submitted q spec (some info)).lock = _) rfl rfl
  unfold JobsQueue.callWithAudit
  have constructed : Job.create spec (some q.callCount) = submitted q spec (some info) := rfl
  dsimp only
  rw [constructed]
  generalize q.add (submitted q spec (some info)) = result at added log idle job answered ⊢
  obtain ⟨r, result⟩ := result
  cases result with
  | error e =>
    dsimp only
    rw [← log.callCount]
    exact added.refuse rfl encodes
  | ok j =>
    obtain ⟨known, waiting, unfinished⟩ := idle j rfl
    dsimp only
    rw [← log.callCount]
    refine added.attach rfl encodes known waiting unfinished ?_
    dsimp only at job log answered
    obtain ⟨other, _, _, same⟩ | ⟨-, _, _, _, same⟩ := job j
    · have free : q.slotAudited j = false := Bool.eq_false_iff.mpr fun slot => by
        simp [((answered j rfl).resolve_left other).2 slot] at kept
      simpa only [JobsQueue.slotAudited, same, log.calls] using free
    · simp only [JobsQueue.slotAudited, same]
      rfl

theorem AuditInv.step {a : Label} (locks : LockInv q)
    (phase : ∀ k, (q.jobs k).Phase) (attributed : Attributed q a) (taken : step q a = some q') :
    AuditInv q' := by
  have quiet : SameLog q q' → (∀ spec info, a ≠ .submit spec (some info)) →
      (∀ k outcome, a = .run k outcome → (q.jobs k).pc ≠ .onFinish) → AuditInv q' := by
    intro log call callback
    have job := fun k => JobStep.quiet inv (phase k) (step_job locks taken k) call (callback k)
    exact inv.quiet log (fun k => (job k).1) (fun k => (job k).2.1) fun k => (job k).2.2
  cases step_shape taken with
  | submit spec => exact inv.add locks spec none
  | audited spec info _ => exact inv.callWithAudit locks phase spec info attributed
  | next _ taken => exact quiet (.next locks taken) (by simp) (by simp)
  | line j outcome plain =>
    refine quiet ⟨rfl, rfl, rfl, le_refl _⟩ (by simp) ?_
    rintro _ _ ⟨⟩ pc
    simp [pc, RunPc.plain] at plain
  | release j outcome r pc released =>
    have log : SameLog q r := by
      rw [locks.releaseLock_rest (locks.releasing pc) released]
      exact ⟨rfl, rfl, rfl, le_refl _⟩
    refine quiet { log with } (by simp) ?_
    rintro _ _ ⟨⟩ pc'
    cases pc.symm.trans pc'
  | releaseRaised j outcome r pc raised => exact absurd raised (locks.releaseLock_ne_error pc r)
  | onFinish j outcome pc => exact inv.onFinish (phase j) pc (attributed pc)
  | cleanup j outcome r pc removed =>
    refine quiet ?_ (by simp) ?_
    · obtain rfl | ⟨id, rfl⟩ := removed <;> exact ⟨rfl, rfl, rfl, le_refl _⟩
    · rintro _ _ ⟨⟩ pc'
      cases pc.symm.trans pc'
  | abort | abortLine => exact quiet ⟨rfl, rfl, rfl, le_refl _⟩ (by simp) (by simp)

end

theorem AuditInv.init : AuditInv {} where
  fresh c _ := ⟨rfl, rfl⟩
  encodes := by simp
  known := by simp
  slot := by simp [Job.create]
  served := by simp
  uncalled j _ := rfl
  refused := by simp
  counted := by simp

/-- In every run that keeps the slots and the callbacks intact, an audited call that
was refused has one record, and one that is served by a job has one as soon as
the job has finished and called back, and none before. -/
theorem audit_complete {q : JobsQueue} (reached : Reach step Attributed {} q) {c : CallRef}
    {call : Call} (made : q.calls c = some call) (audited : call.info.audited = true) :
    (call.job = none → q.records c = 1) ∧ ∀ j, call.job = some j →
        q.records c = if (q.jobs j).finished = true ∧ (q.jobs j).pc ≠ .onFinish then 1 else 0 := by
  have inv : AuditInv q := reached.invariant_of_reach AuditInv.init
    fun _ _ _ before inv attributed taken =>
      inv.step (LockInv.reach before) (reach_phase before) attributed taken
  refine ⟨fun refused => inv.refused c call made refused audited, fun j serves => ?_⟩
  simpa [Job.reported] using inv.counted c call j made serves audited

/-- An audited method with a lock of its own is called and its job runs. -/
def auditedRun : List Label :=
  .submit { options := { lock := .constant (some "pool:tank") } }
    (some { audit := "Pool export" }) ::
    .next :: replicate 16 (.run 0 none)

theorem audit_complete_auditedRun :
    ∃ q, exec step Attributed {} auditedRun = some q ∧ (q.jobs 0).finished = true ∧
      q.records 0 = 1 := by
  have run : ∃ q, exec step Attributed {} auditedRun = some q ∧ (q.jobs 0).finished = true ∧
      (q.jobs 0).pc = .ended ∧ q.calls 0 = some ⟨{ audit := "Pool export" }, some 0, true⟩ :=
    ⟨_, rfl, rfl, rfl, rfl⟩
  obtain ⟨q, result, finished, ended, made⟩ := run
  refine ⟨q, result, finished, ?_⟩
  have counted := (audit_complete (reach_exec .start result) made rfl).2 0 rfl
  simpa [finished, ended] using counted

/-- Two calls of a method with `lock_queue_size=1` are answered with one job, and
the first of them is never logged. -/
theorem audit_record_lost :
    ∃ q, Reach step Always {} q ∧ (q.jobs 0).finished = true ∧ (q.jobs 0).pc = .ended ∧
      q.calls 0 = some ⟨{ audit := "Pool export" }, some 0, true⟩ ∧
      q.calls 1 = some ⟨{ audit := "Pool export" }, some 0, true⟩ ∧
      q.records 0 = 0 ∧ q.records 1 = 1 := by
  apply exists_reach (replicate 2 (.submit { options :=
      { lock := .constant (some "pool:tank"), lockQueueSize := some 1 } }
      (some { audit := "Pool export" })) ++ .next :: replicate 16 (.run 0 none))
  exact ⟨_, rfl, rfl, rfl, rfl, rfl, rfl, rfl⟩

end TruenasMiddleware.Jobs
