import TruenasMiddleware.Jobs.Deque

/-!
`lock_queue_size` over whole runs. With a size of at least one, `add` counts the
queued jobs of the lock. With size 0 it looks for a `RUNNING` job only, and a job
is `WAITING` from its submission until `run` has passed its first lines, so a
second submission gets through in between.
-/

namespace TruenasMiddleware.Jobs

open Transition List

inductive JobAccess
  | read | abort
deriving DecidableEq

def internallyRan : String :=
  "Only users with full administrative privileges can access internally ran jobs"

def notOwned : String := "Job is not owned by current session"

/-- `Job.credential_access_error` of a job with the credentials `own`; `hasRole` is
the credential's `has_role`. -/
def credentialAccessError (hasRole : Credentials → String → Bool) (readRoles : List String)
    (own : Option Credentials) (credential : Credentials) (access : JobAccess) : Option String :=
  if credentialIsLimitedToOwnJobs (some credential) = false then none
  else if access = .read ∧ credential.isUserSession ∧ readRoles.any (hasRole credential) then none
  else if credential.isUserSession = false ∨ credentialHasFullAdmin credential then none
  else
    match own with
    | none => some internallyRan
    | some own =>
      if own.isUserSession = false then some internallyRan
      else if own.username = credential.username then none
      else some notOwned

theorem credentialAccessError_own (hasRole : Credentials → String → Bool) (readRoles : List String)
    {own credential : Credentials} (session : own.isUserSession = true)
    (eq : own.username = credential.username) (access : JobAccess) :
    credentialAccessError hasRole readRoles (some own) credential access = none := by
  unfold credentialAccessError
  split_ifs <;> first | rfl | simp [session, eq]

def JobSpec.lockName (spec : JobSpec) : Option String := spec.getLockName.toOption.join

variable {spec : JobSpec}

theorem JobSpec.getLockName_of_lockName {name : String} (named : spec.lockName = some name) :
    spec.getLockName = .ok (some name) := by
  unfold lockName at named
  cases result : spec.getLockName with
  | error e => simp [result, Except.toOption] at named
  | ok value => simpa [result, Except.toOption] using named

namespace JobsQueue

/-- The job is of the lock `name` and waits or has been handed out. -/
def UsesName (q : JobsQueue) (name : String) (j : JobRef) : Prop :=
  q.InUse j ∧ (q.jobs j).spec.lockName = some name

def waiting (q : JobsQueue) (name : String) : Nat :=
  (q.queue.filter fun j => (q.jobs j).spec.lockName = some name).length

end JobsQueue

/-- Every job of the lock `name` declares the size `n`; with size 0, it is not
submitted while a job of the lock waits, is about to start or is finishing. -/
def Sized (name : String) (n : Nat) (q : JobsQueue) : Label → Prop
  | .submit spec _ => spec.lockName = some name →
    spec.options.lockQueueSize = some (n : Int) ∧
      (n = 0 → ∀ j < q.jobCount, q.UsesName name j → (q.jobs j).state = .running)
  | .next | .run .. | .abort _ | .abortLine .. => True

variable {q q' p : JobsQueue} {a : Label} {name : String} {n : Nat}

theorem same_lock_iff {j k : JobRef} {l : LockRef} (first : q.Uses j) (second : q.Uses k)
    (named : (q.jobs j).spec.lockName = some name) (lock : (q.jobs j).lock = some l) :
    (q.jobs k).lock = some l ↔ (q.jobs k).spec.lockName = some name := by
  have ownName : (q.locks l).name = name := by
    have result := first.name
    rw [JobSpec.getLockName_of_lockName named, lock] at result
    simpa using result.symm
  have otherName : (q.jobs k).spec.lockName = (q.jobs k).lock.map fun m => (q.locks m).name := by
    rw [JobSpec.lockName, second.name]
    rfl
  rw [otherName]
  constructor
  · intro pointer
    simp [pointer, ownName]
  · intro shared
    obtain ⟨m, pointer, eq⟩ := Option.map_eq_some_iff.mp shared
    have registered := second.registered m pointer
    rw [eq, ← ownName, first.registered l lock] at registered
    rw [pointer, Option.some.inj registered]

/-- The state in which `add` decides about a job of the lock `name`. -/
structure Deciding (q p : JobsQueue) (name : String) (spec : JobSpec) (info : Option AuditInfo) :
    Prop where
  add : q.add (submitted q spec info) = p.enqueue q.jobCount
  queue : p.queue = q.queue
  dict : p.dict = q.dict
  spec : (p.jobs q.jobCount).spec = spec
  state : ∀ k, k ≠ q.jobCount → (p.jobs k).state = (q.jobs k).state
  /-- The jobs that `add` compares are those of the same name. -/
  lock : ∀ k, q.InUse k → ((p.jobs k).lock = (p.jobs q.jobCount).lock ↔
    (q.jobs k).spec.lockName = some name)

theorem LockInv.deciding (inv : LockInv q) (info : Option AuditInfo)
    (named : spec.lockName = some name) : ∃ p, Deciding q p name spec info := by
  have getLockName := JobSpec.getLockName_of_lockName named
  obtain ⟨prepared, uses⟩ : Prepared q _ (submitted q spec info) q.jobCount ∧ _ :=
    inv.handleLock rfl rfl rfl getLockName
  have dict := (SameDict.handleLock (q.alloc (submitted q spec info)) q.jobCount (some name)).dict
  refine ⟨_, add_of_ok _ getLockName, prepared.queue, dict, prepared.own.sameJob.spec,
    fun k different => ?_, fun k used => ?_⟩
  · obtain ⟨_, _, same⟩ := prepared.other k different
    rw [same]
  · generalize (q.alloc (submitted q spec info)).handleLock q.jobCount (some name) = p
      at prepared uses
    have same := (prepared.other k (inv.ne_fresh used)).sameJob
    have own : (p.jobs q.jobCount).spec.lockName = some name := by
      rw [prepared.own.sameJob.spec]
      exact named
    have used' : p.InUse k := by
      rw [JobsQueue.InUse, prepared.queue, same.handedOut]
      exact used
    obtain ⟨l, lock, -⟩ : ∃ l, (p.jobs q.jobCount).lock = some l ∧ (p.locks l).name = name := by
      have result := uses.name
      rw [JobSpec.getLockName_of_lockName own] at result
      exact Option.map_eq_some_iff.mp (Except.ok.inj result).symm
    rw [lock, same_lock_iff uses (prepared.inv.uses k used') own lock, same.spec]

variable {info : Option AuditInfo} (deciding : Deciding q p name spec info)
include deciding

theorem Deciding.queuedJobs :
    (p.queuedJobs q.jobCount).length = q.waiting name := by
  rw [JobsQueue.queuedJobs, JobsQueue.waiting, deciding.queue]
  refine congrArg length (filter_congr fun k mem => ?_)
  exact decide_eq_decide.mpr (deciding.lock k (.inl mem))

theorem Deciding.runningJob (inv : LockInv q) (dict : DictInv q) {j : JobRef}
    (uses : q.UsesName name j) (running : (q.jobs j).state = .running) :
    p.runningJob q.jobCount = true := by
  obtain ⟨i, mem⟩ := dict.listed j uses.1 (by rw [running]; rfl)
  rw [JobsQueue.runningJob, any_eq_true]
  refine ⟨(i, j), deciding.dict ▸ mem, ?_⟩
  rw [decide_eq_true_eq, deciding.state j (inv.ne_fresh uses.1)]
  exact ⟨running, (deciding.lock j uses.1).mpr uses.2⟩

theorem Deciding.admission_append (inv : LockInv q)
    (enlisted : q.jobCount ∈ (q.add (submitted q spec info)).1.queue) :
    p.admission q.jobCount = .append := by
  rw [deciding.add] at enlisted
  have absent : q.jobCount ∉ p.queue := by
    rw [deciding.queue]
    exact fun mem => inv.fresh_unused (.inl mem)
  exact ((enqueue_cases p q.jobCount).queue_iff absent).mp enlisted

omit deciding

/-- The bound that the size gives: on the queued jobs, or on all in use with size 0. -/
structure Limited (name : String) (n : Nat) (q : JobsQueue) : Prop where
  bound : n ≠ 0 → q.waiting name ≤ n
  alone : n = 0 → ∀ j k, q.UsesName name j → q.UsesName name k → j = k

theorem Limited.shrunk (limited : Limited name n q) (queue : q'.queue.Sublist q.queue)
    (used : ∀ j, q'.InUse j → q.InUse j ∧ (q'.jobs j).spec = (q.jobs j).spec) :
    Limited name n q' := by
  have before : ∀ j, q'.UsesName name j → q.UsesName name j := fun j uses =>
    ⟨(used j uses.1).1, (used j uses.1).2 ▸ uses.2⟩
  refine ⟨fun positive => le_trans ?_ (limited.bound positive),
    fun zero j k first second => limited.alone zero j k (before j first) (before k second)⟩
  have eq : (q'.queue.filter fun j => (q'.jobs j).spec.lockName = some name) =
      q'.queue.filter fun j => (q.jobs j).spec.lockName = some name :=
    filter_congr fun j mem => by rw [(used j (.inl mem)).2]
  rw [JobsQueue.waiting, eq]
  exact (queue.filter _).length_le

section Joined

variable {spec : JobSpec}

theorem usesName_of_joined (own : (q'.jobs q.jobCount).spec = spec)
    (used : ∀ j, j ≠ q.jobCount → q'.InUse j → q.InUse j ∧ (q'.jobs j).spec = (q.jobs j).spec)
    {j : JobRef} (uses : q'.UsesName name j) :
    j = q.jobCount ∧ spec.lockName = some name ∨ q.UsesName name j := by
  by_cases new : j = q.jobCount
  · subst new
    exact .inl ⟨rfl, own ▸ uses.2⟩
  · exact .inr ⟨(used j new uses.1).1, (used j new uses.1).2 ▸ uses.2⟩

theorem waiting_of_joined (inv : LockInv q) (queue : q'.queue = q.queue ++ [q.jobCount])
    (own : (q'.jobs q.jobCount).spec = spec)
    (used : ∀ j, j ≠ q.jobCount → q'.InUse j → q.InUse j ∧ (q'.jobs j).spec = (q.jobs j).spec) :
    q'.waiting name = q.waiting name + if spec.lockName = some name then 1 else 0 := by
  have kept : (q.queue.filter fun j => (q'.jobs j).spec.lockName = some name) =
      q.queue.filter fun j => (q.jobs j).spec.lockName = some name := by
    refine filter_congr fun j mem => ?_
    rw [(used j (inv.ne_fresh (.inl mem)) (.inl (queue ▸ mem_append_left _ mem))).2]
  rw [JobsQueue.waiting, queue, filter_append, kept, length_append, filter_singleton, own]
  by_cases named : spec.lockName = some name
  all_goals simp [named, JobsQueue.waiting]

end Joined

theorem Limited.step (limited : Limited name n q) (inv : LockInv q) (dict : DictInv q)
    (sized : Sized name n q a) (taken : Jobs.step q a = some q') : Limited name n q' := by
  cases inv.queue_step taken with
  | shrunk queue used => exact limited.shrunk queue used
  | joined spec info enlisted queue own used =>
    have count : q'.waiting name = _ := waiting_of_joined inv queue own used
    by_cases named : spec.lockName = some name
    · obtain ⟨size, running⟩ := sized named
      obtain ⟨p, deciding⟩ := inv.deciding info named
      have append := deciding.admission_append inv enlisted
      have declared : (p.jobs q.jobCount).spec.options.lockQueueSize = some (n : Int) := by
        rw [deciding.spec, size]
      refine ⟨fun positive => ?_, ?_⟩
      · have room := queuedJobs_of_append declared (by omega) append
        rw [deciding.queuedJobs] at room
        rw [count, if_pos named]
        omega
      · rintro rfl j k first second
        -- a job of the lock in use would be running, and `add` would have found it
        have unused : ∀ i, ¬ q.UsesName name i := fun i uses => by
          have runs := running rfl i (inv.inUse_known uses.1) uses
          rw [admission_zero declared, deciding.runningJob inv dict uses runs] at append
          cases append
        obtain ⟨new, -⟩ | old := usesName_of_joined own used first
        · obtain ⟨new', -⟩ | old := usesName_of_joined own used second
          · rw [new, new']
          · exact absurd old (unused k)
        · exact absurd old (unused j)
    · have before : ∀ i, q'.UsesName name i → q.UsesName name i := fun i uses =>
        (usesName_of_joined own used uses).resolve_left fun new => named new.2
      refine ⟨fun positive => ?_, fun zero j k first second =>
        limited.alone zero j k (before j first) (before k second)⟩
      rw [count, if_neg named]
      exact limited.bound positive

theorem Limited.reach (reached : Reach Jobs.step (Sized name n) {} q) : Limited name n q := by
  induction reached with
  | start => exact ⟨fun _ => Nat.zero_le _, fun _ j _ uses => by simp [JobsQueue.UsesName,
      JobsQueue.InUse, Job.create] at uses⟩
  | next before sized taken ih =>
    exact ih.step (LockInv.reach before) (DictInv.reach before) sized taken

theorem Limited.waiting_le (limited : Limited name n q) (inv : LockInv q) : q.waiting name ≤ n + 1 ∧
      ∀ j, (q.jobs j).handedOut = true → (q.jobs j).spec.lockName = some name →
        q.waiting name ≤ n := by
  by_cases zero : n = 0
  · have only : ∀ j k, q.UsesName name j → q.UsesName name k → j = k := limited.alone zero
    have uses : ∀ j, j ∈ (q.queue.filter fun j => (q.jobs j).spec.lockName = some name) →
        q.UsesName name j := fun j mem =>
      ⟨.inl (mem_of_mem_filter mem), by simpa using (mem_filter.mp mem).2⟩
    subst zero
    refine ⟨?_, fun j held named => ?_⟩
    · have nodup := inv.nodup.filter fun j => (q.jobs j).spec.lockName = some name
      unfold JobsQueue.waiting
      generalize (q.queue.filter fun j => (q.jobs j).spec.lockName = some name) = list at uses nodup
      cases list with
      | nil => exact Nat.zero_le _
      | cons j rest =>
        cases rest with
        | nil => exact le_rfl
        | cons k rest =>
          have eq := only j k (uses j (by simp)) (uses k (by simp))
          simp [eq] at nodup
    · rw [JobsQueue.waiting, Nat.le_zero, length_eq_zero_iff, eq_nil_iff_forall_not_mem]
      intro k mem
      have eq := only k j (uses k mem) ⟨.inr held, named⟩
      have idle := (inv.queued k (mem_of_mem_filter mem)).2.1
      rw [eq, held] at idle
      cases idle
  · have bound := limited.bound zero
    exact ⟨bound.trans (Nat.le_succ n), fun _ _ _ => bound⟩

theorem canJoin_limited {own : Credentials} {queued : Option Credentials}
    (limited : credentialIsLimitedToOwnJobs (some own) = true)
    (joins : JobsQueue.canJoin (some own) queued = true) :
    ∃ other, queued = some other ∧ other.isUserSession = true ∧ other.username = own.username := by
  cases queued with
  | none => simp [JobsQueue.canJoin, limited] at joins
  | some other =>
    simp only [JobsQueue.canJoin, limited, Bool.not_true, Bool.false_or, Bool.and_eq_true,
      beq_iff_eq] at joins
    exact ⟨other, rfl, joins.1.2, joins.2.symm⟩

theorem LockInv.returned_owned (inv : LockInv q) {k : JobRef} {own : Credentials}
    (result : (q.add (submitted q spec info)).2 = .ok k) (credentials : spec.credentials = some own)
    (limited : credentialIsLimitedToOwnJobs (some own) = true) :
    ∃ other, ((q.add (submitted q spec info)).1.jobs k).spec.credentials = some other ∧
      other.isUserSession = true ∧ other.username = own.username := by
  cases named : spec.getLockName with
  | error e =>
    rw [add_of_error (submitted q spec info) named] at result
    cases result
  | ok lockName =>
    obtain ⟨prepared, -⟩ : Prepared q _ (submitted q spec info) q.jobCount ∧ _ :=
      inv.handleLock rfl rfl rfl named
    rw [add_of_ok (submitted q spec info) named] at result ⊢
    generalize (q.alloc (submitted q spec info)).handleLock q.jobCount lockName = p
      at prepared result ⊢
    have spec_eq : (p.jobs q.jobCount).spec = spec := prepared.own.sameJob.spec
    have ended := enqueue_cases p q.jobCount
    generalize p.enqueue q.jobCount = outcome at ended result ⊢
    cases ended with
    | rejected => cases result
    | @coalesced queued _ _ decided same answer =>
      obtain rfl : queued = k := by
        rcases answer with answer | answer <;> rw [answer] at result <;> cases result
        rfl
      have joins := canJoin_of_coalesce decided
      rw [spec_eq, credentials] at joins
      rw [(same.job queued).sameJob.spec]
      exact canJoin_limited limited joins
    | appended event decided =>
      have spec' : ((p.append q.jobCount).jobs q.jobCount).spec = spec :=
        ((SameQueue.dequeAdd p q.jobCount).job _).sameJob.spec.trans spec_eq
      obtain rfl : q.jobCount = k := by
        dsimp only at result
        split_ifs at result
        exact Except.ok.inj result
      refine ⟨own, ?_, ?_, rfl⟩
      · show ((p.append q.jobCount).jobs q.jobCount).spec.credentials = some own
        rw [spec', credentials]
      · simp only [credentialIsLimitedToOwnJobs, Bool.and_eq_true] at limited
        exact limited.1

instance (q : JobsQueue) (name : String) (j : JobRef) : Decidable (q.UsesName name j) :=
  inferInstanceAs (Decidable ((_ ∨ _) ∧ _))

instance (name : String) (n : Nat) (q : JobsQueue) : (a : Label) → Decidable (Sized name n q a)
  | .submit spec _ => inferInstanceAs (Decidable (spec.lockName = some name →
      spec.options.lockQueueSize = some (n : Int) ∧
        (n = 0 → ∀ j < q.jobCount, q.UsesName name j → (q.jobs j).state = .running)))
  | .next | .run .. | .abort _ | .abortLine .. => .isTrue trivial

/-- In the runs where all jobs of a lock declare the size `n` and, with size 0, none
is submitted while one of them waits, is about to start or is finishing: at most
`n` jobs of the lock wait beside the one that may hold it, with size 0 a
submission that finds a waiting or running job of the lock is rejected, and the
job that a limited caller gets is one that the caller may read. -/
theorem lock_queue_bound (reached : Reach step (Sized name n) {} q) : (q.waiting name ≤ n + 1 ∧
      ∀ j, (q.jobs j).handedOut = true → (q.jobs j).spec.lockName = some name →
        q.waiting name ≤ n) ∧
    (∀ spec info, n = 0 → spec.lockName = some name → Sized name n q (.submit spec info) →
      (∃ j, q.UsesName name j ∧ (q.jobs j).state.terminal = false) →
      (q.add (submitted q spec info)).2 = .error (.callError JobsQueue.alreadyBeingPerformed)) ∧
    ∀ spec info k credential hasRole readRoles, (q.add (submitted q spec info)).2 = .ok k →
      spec.credentials = some credential → credentialIsLimitedToOwnJobs (some credential) = true →
      credentialAccessError hasRole readRoles
        ((q.add (submitted q spec info)).1.jobs k).spec.credentials credential .read = none := by
  have inv := LockInv.reach reached
  refine ⟨(Limited.reach reached).waiting_le inv, ?_, ?_⟩
  · rintro spec info rfl named sized ⟨j, uses, -⟩
    obtain ⟨size, running⟩ := sized named
    obtain ⟨p, deciding⟩ := inv.deciding info named
    have declared : (p.jobs q.jobCount).spec.options.lockQueueSize = some 0 := by
      rw [deciding.spec, size]
      rfl
    have found := deciding.runningJob inv (DictInv.reach reached) uses
      (running rfl j (inv.inUse_known uses.1) uses)
    have decided := admission_zero declared
    rw [found, if_pos rfl] at decided
    rw [deciding.add, JobsQueue.enqueue, decided]
  · intro spec info k credential hasRole readRoles result credentials limited
    obtain ⟨other, own, session, same⟩ := inv.returned_owned result credentials limited
    rw [own]
    exact credentialAccessError_own hasRole readRoles session same .read

def updateJob : JobSpec :=
  { options := { lock := .constant (some "update"), lockQueueSize := some 0 } }

/-- An update that has been submitted and started is `RUNNING`: the next one is rejected. -/
theorem lock_queue_bound_running :
    ∃ q, Reach step (Sized "update" 0) {} q ∧ (q.jobs 0).state = .running ∧
      q.waiting "update" ≤ 0 ∧ (q.add (submitted q updateJob none)).2 =
        .error (.callError JobsQueue.alreadyBeingPerformed) := by
  obtain ⟨q, reached, running, held, named, sized⟩ : ∃ q, Reach step (Sized "update" 0) {} q ∧
      (q.jobs 0).state = .running ∧ (q.jobs 0).handedOut = true ∧
      (q.jobs 0).spec.lockName = some "update" ∧ Sized "update" 0 q (.submit updateJob none) :=
    exists_reach ([.submit updateJob none, .next] ++ replicate 3 (.run 0 none))
      ⟨_, rfl, rfl, rfl, rfl, by decide⟩
  obtain ⟨⟨-, bound⟩, rejected, -⟩ := lock_queue_bound reached
  exact ⟨q, reached, running, bound 0 held named,
    rejected _ none rfl rfl sized ⟨0, ⟨.inr held, named⟩, by rw [running]; rfl⟩⟩

/-- Two submissions before the scheduler runs: both updates wait. -/
theorem lock_queue_overfull :
    ∃ q, exec step Always {} (List.replicate 2 (.submit updateJob none)) = some q ∧
      q.waiting "update" = 2 :=
  ⟨_, rfl, rfl⟩

end TruenasMiddleware.Jobs
