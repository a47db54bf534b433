import TruenasMiddleware.Jobs.Admission
import TruenasMiddleware.Jobs.StateMachine

/-!
Which jobs a step brings into use, and which jobs the deque keeps. The limit of
`add` looks for running jobs in the deque, so it matters that a job in use which
has not reached a terminal state is still listed there.
-/

namespace TruenasMiddleware.Jobs

open Transition List

variable {q r q' s : JobsQueue} {a : Label}

inductive QueueMove (q q' : JobsQueue) : Label → Prop
  | shrunk {a : Label} (queue : q'.queue.Sublist q.queue)
      (used : ∀ j, q'.InUse j → q.InUse j ∧ (q'.jobs j).spec = (q.jobs j).spec) : QueueMove q q' a
  | joined (spec : JobSpec) (info : Option AuditInfo)
      (enlisted : q.jobCount ∈ (q.add (submitted q spec info)).1.queue)
      (queue : q'.queue = q.queue ++ [q.jobCount]) (own : (q'.jobs q.jobCount).spec = spec)
      (used : ∀ j, j ≠ q.jobCount → q'.InUse j →
        q.InUse j ∧ (q'.jobs j).spec = (q.jobs j).spec) : QueueMove q q' (.submit spec info)

theorem SameQueue.inUse {rel : Job → Job → Prop} (same : SameQueue rel q r) {j : JobRef}
    (handedOut : (r.jobs j).handedOut = (q.jobs j).handedOut) : r.InUse j ↔ q.InUse j := by
  rw [JobsQueue.InUse, JobsQueue.InUse, same.queue, handedOut]

theorem LockInv.add_move (inv : LockInv q) (spec : JobSpec) (info : Option AuditInfo) :
    QueueMove q (q.add (submitted q spec info)).1 (.submit spec info) := by
  have old : ∀ j, j ≠ q.jobCount →
      SameJob (q.jobs j) ((q.add (submitted q spec info)).1.jobs j) := by
    intro j different
    obtain ⟨-, same⟩ | ⟨fresh, -⟩ := add_job inv spec info j
    · exact same.sameJob
    · exact absurd fresh different
  have new : SameJob (submitted q spec info)
      { (q.add (submitted q spec info)).1.jobs q.jobCount with lock := none } := by
    obtain ⟨different, -⟩ | ⟨-, lock, same⟩ := add_job inv spec info q.jobCount
    · exact absurd rfl different
    · obtain ⟨_, _, same⟩ := same
      rw [same]
      exact .stayed rfl rfl rfl rfl
  have added : AddResult q (submitted q spec info) _ := inv.add_cases rfl rfl rfl
  obtain prepared | ⟨s, prepared, -, event, result, -⟩ := added
  · refine .shrunk (prepared.queue ▸ .refl _) fun j used => ?_
    have different : j ≠ q.jobCount := by
      rintro rfl
      refine used.elim (fun mem => ?_) fun taken => ?_
      · exact inv.fresh_unused (.inl (prepared.queue ▸ mem))
      · exact absurd (new.handedOut.symm.trans taken) Bool.false_ne_true
    refine ⟨used.imp (fun mem => prepared.queue ▸ mem) fun taken => ?_, (old j different).spec⟩
    rw [← (old j different).handedOut]
    exact taken
  · have queue : (q.add (submitted q spec info)).1.queue = q.queue ++ [q.jobCount] := by
      rw [result, ← prepared.queue]
      exact queue_append s q.jobCount
    refine .joined spec info (by simp [queue]) queue new.spec fun j different used => ?_
    refine ⟨used.imp (fun mem => ?_) fun taken => ?_, (old j different).spec⟩
    · rw [queue] at mem
      simpa [different] using mem
    · rw [← (old j different).handedOut]
      exact taken

theorem take_queue (q : JobsQueue) (j : JobRef) : (q.take j).queue.Sublist q.queue := by
  unfold JobsQueue.take
  split
  · exact erase_sublist
  · split
    · exact erase_sublist
    · exact .refl _

theorem LockInv.queue_step (inv : LockInv q) (taken : Jobs.step q a = some q') :
    QueueMove q q' a := by
  cases step_cases taken with
  | frame same =>
    refine .shrunk (same.queue ▸ .refl _) fun j used => ?_
    exact ⟨(same.inUse (same.job j).handedOut).mp used, (same.job j).spec⟩
  | submit spec info same =>
    have back : ∀ j, q'.InUse j → (q.add (submitted q spec info)).1.InUse j :=
      fun j used => (same.inUse (same.job j).handedOut).mp used
    cases inv.add_move spec info with
    | shrunk queue used =>
      refine .shrunk (same.queue ▸ queue) fun j inUse => ?_
      exact (used j (back j inUse)).imp_right (same.job j).spec.trans
    | joined spec info enlisted queue own used =>
      refine .joined spec info enlisted (same.queue.trans queue)
        ((same.job _).spec.trans own) fun j different inUse => ?_
      exact (used j different (back j inUse)).imp_right (same.job j).spec.trans
  | next taken =>
    obtain ⟨-, ⟨j, found, rfl⟩ | ⟨-, rfl⟩⟩ := inv.next_cases taken
    · have queued := mem_of_find?_eq_some found
      obtain ⟨r, result, jobs, -⟩ := inv.take_handOut found
      refine .shrunk (take_queue q j) fun k used => ⟨?_, by rw [result, handOut_spec, jobs]⟩
      refine used.elim (fun mem => .inl ((take_queue q j).mem mem)) fun taken => ?_
      rw [result, handOut_handedOut, jobs] at taken
      exact taken.elim (fun same => .inl (same ▸ queued)) .inr
    · exact .shrunk (.refl _) fun j used => ⟨used, rfl⟩
  | release j outcome r pc released =>
    have held := inv.releasing pc
    have jobs := inv.releaseLock_jobs held released
    have queue : r.queue = q.queue := by rw [inv.releaseLock_rest held released]
    refine .shrunk (queue ▸ .refl _) fun k used => ?_
    by_cases same : k = j
    · subst same
      refine ⟨.inr held, ?_⟩
      simp [JobsQueue.setJob, jobs]
    · rw [JobsQueue.InUse] at used
      simp only [JobsQueue.setJob, Function.update_of_ne same, jobs] at used ⊢
      exact ⟨used.imp_left fun mem => queue ▸ mem, trivial⟩
  | releaseRaised j outcome r pc raised => exact absurd raised (inv.releaseLock_ne_error pc r)

structure SameDict (q r : JobsQueue) : Prop where
  dict : r.dict = q.dict
  count : r.count = q.count
  jobCount : r.jobCount = q.jobCount
  id : ∀ j, (r.jobs j).id = (q.jobs j).id

namespace SameDict

theorem refl (q : JobsQueue) : SameDict q q := ⟨rfl, rfl, rfl, fun _ => rfl⟩

theorem trans (first : SameDict q r) (second : SameDict r s) : SameDict q s :=
  ⟨second.dict.trans first.dict, second.count.trans first.count,
    second.jobCount.trans first.jobCount, fun j => (second.id j).trans (first.id j)⟩

section

variable (q)

theorem setJob (j : JobRef) {f : Job → Job}
    (same : (f (q.jobs j)).id = (q.jobs j).id) :
    SameDict q (q.setJob j f) := by
  refine ⟨rfl, rfl, rfl, fun k => ?_⟩
  by_cases own : k = j
  · subst own
    simpa [JobsQueue.setJob] using same
  · simp [JobsQueue.setJob, own]

theorem setLock (l : LockRef) (f : JobSharedLock → JobSharedLock) :
    SameDict q (q.setLock l f) :=
  ⟨rfl, rfl, rfl, fun _ => rfl⟩

theorem callOnFinishCb (j : JobRef) (outcome : Option Raised) :
    SameDict q (q.callOnFinishCb j outcome).1 := by
  obtain ⟨_, called, result⟩ := q.callOnFinishCb_rest j outcome
  have kept : SameDict q (q.setJob j fun job => { job with onFinishCbCalled := called }) :=
    setJob q j rfl
  rw [result]
  exact { kept with }

theorem setOnFinishCb (j : JobRef) (c : CallRef) :
    SameDict q (q.setOnFinishCb j c) := by
  have stored : SameDict q (q.setJob j fun job => { job with onFinishCb := some c }) :=
    setJob q j rfl
  unfold JobsQueue.setOnFinishCb
  dsimp only
  split_ifs
  · exact stored.trans (callOnFinishCb _ j _)
  · exact stored

theorem callWithAudit (spec : JobSpec) (info : AuditInfo) :
    SameDict (q.add (submitted q spec (some info))).1 (q.callWithAudit spec info) := by
  unfold JobsQueue.callWithAudit submitted
  dsimp only [Option.map_some]
  split
  · rename_i r j added
    rw [added]
    exact (SameDict.trans (r := r.recordCall _) ⟨rfl, rfl, rfl, fun _ => rfl⟩ (setOnFinishCb _ j _))
  · rename_i r e added
    rw [added]
    exact ⟨rfl, rfl, rfl, fun _ => rfl⟩

theorem handOut (j : JobRef) : SameDict q (q.handOut j) := by
  refine ⟨rfl, rfl, rfl, fun k => ?_⟩
  rw [handOut_job]
  split_ifs with same
  · rw [same]
  · rfl

theorem take (j : JobRef) : SameDict q (q.take j) := by
  unfold JobsQueue.take
  split
  · exact handOut q j
  · split
    · exact (setLock q _ _).trans (handOut _ j)
    · exact ⟨rfl, rfl, rfl, fun _ => rfl⟩

theorem handleLock (j : JobRef) (name : Option String) :
    SameDict q (q.handleLock j name) := by
  cases name with
  | none => exact refl q
  | some name =>
    have registered : SameDict q (q.registerLock name).1 := by
      unfold JobsQueue.registerLock
      split
      · exact refl q
      · exact ⟨rfl, rfl, rfl, fun _ => rfl⟩
    have entered := registered.trans (setLock _ (q.registerLock name).2 (·.addJob j))
    exact entered.trans (setJob _ j (f := fun job =>
      { job with lock := some (q.registerLock name).2 }) rfl)

end

end SameDict

/-- Ids belong to one job each, an entry has the id of its job, and a job in use
that has not reached a terminal state has an entry. -/
structure DictInv (q : JobsQueue) : Prop where
  numbered : ∀ entry ∈ q.dict, (q.jobs entry.2).id = some entry.1
  bounded : ∀ j i, (q.jobs j).id = some i → i ≤ q.count
  distinct : ∀ j k i, (q.jobs j).id = some i → (q.jobs k).id = some i → j = k
  known : ∀ entry ∈ q.dict, entry.2 < q.jobCount
  listed : ∀ j, q.InUse j → (q.jobs j).state.terminal = false → ∃ i, (i, j) ∈ q.dict

namespace DictInv

theorem init : DictInv {} where
  numbered := by simp
  bounded := by simp [Job.create]
  distinct := by simp [Job.create]
  known := by simp
  listed := by simp [JobsQueue.InUse, Job.create]

variable (dict : DictInv q)
include dict

theorem same (same : SameDict q r) (used : ∀ j, r.InUse j → (r.jobs j).state.terminal = false →
      q.InUse j ∧ (q.jobs j).state.terminal = false) : DictInv r where
  numbered := by
    rw [same.dict]
    exact fun entry mem => (same.id _).trans (dict.numbered entry mem)
  bounded j i := by
    rw [same.id, same.count]
    exact dict.bounded j i
  distinct j k i := by
    rw [same.id, same.id]
    exact dict.distinct j k i
  known := by
    rw [same.dict, same.jobCount]
    exact dict.known
  listed j inUse unfinished := by
    rw [same.dict]
    exact dict.listed j (used j inUse unfinished).1 (used j inUse unfinished).2

theorem setJob (j : JobRef) {f : Job → Job} (id : (f (q.jobs j)).id = (q.jobs j).id)
    (handedOut : (f (q.jobs j)).handedOut = true → (q.jobs j).handedOut = true)
    (unfinished : (f (q.jobs j)).state.terminal = false → (q.jobs j).state.terminal = false) :
    DictInv (q.setJob j f) := by
  refine dict.same (.setJob q j id) fun k used open_ => ?_
  by_cases same : k = j
  · subst same
    simp only [JobsQueue.InUse, JobsQueue.setJob, Function.update_self] at used open_
    exact ⟨used.imp_right handedOut, unfinished open_⟩
  · simp only [JobsQueue.InUse, JobsQueue.setJob, Function.update_of_ne same] at used open_
    exact ⟨used, open_⟩

variable {j k : JobRef} {i id : Nat}

theorem mem_remove (mem : (i, k) ∈ q.dict)
    (owner : (q.jobs j).id = some id) (different : k ≠ j) : (i, k) ∈ (q.remove id).dict := by
  refine mem_filter.mpr ⟨mem, ?_⟩
  simp only [decide_eq_true_eq]
  rintro rfl
  exact different (dict.distinct k j i (dict.numbered _ mem) owner)

theorem mem_evict (mem : (i, k) ∈ q.dict)
    (unfinished : (q.jobs k).state.terminal = false) : (i, k) ∈ q.evict.dict := by
  unfold JobsQueue.evict
  split_ifs
  · split
    · rename_i entry found
      have done : (q.jobs entry.2).state.terminal = true := by simpa using List.find?_some found
      refine dict.mem_remove mem (dict.numbered _ (mem_of_find?_eq_some found)) ?_
      rintro rfl
      rw [unfinished] at done
      cases done
    · exact mem
  · exact mem

omit dict in
theorem evict_sublist (q : JobsQueue) : q.evict.dict.Sublist q.dict := by
  unfold JobsQueue.evict
  split_ifs
  · split
    · exact filter_sublist
    · exact .refl _
  · exact .refl _

theorem alloc (inv : LockInv q) {job : Job} (id : job.id = none)
    (handedOut : job.handedOut = false) : DictInv (q.alloc job) := by
  have old : ∀ k i, ((q.alloc job).jobs k).id = some i → (q.jobs k).id = some i := by
    intro k i
    rw [alloc_job]
    split_ifs
    · simp [id]
    · exact fun numbered => numbered
  have other : ∀ k, k ≠ q.jobCount → (q.alloc job).jobs k = q.jobs k := fun k different => by
    rw [alloc_job, if_neg different]
  refine ⟨fun entry mem => ?_, fun j i numbered => dict.bounded j i (old j i numbered),
    fun j k i first second => dict.distinct j k i (old j i first) (old k i second),
    fun entry mem => (dict.known entry mem).trans (Nat.lt_succ_self _), ?_⟩
  · rw [other _ (dict.known entry mem).ne]
    exact dict.numbered entry mem
  · intro j used unfinished
    have different : j ≠ q.jobCount := by
      rintro rfl
      refine used.elim (fun mem => inv.fresh_unused (.inl mem)) fun taken => ?_
      rw [alloc_job, if_pos rfl, handedOut] at taken
      cases taken
    rw [JobsQueue.InUse, other j different] at used
    rw [other j different] at unfinished
    exact dict.listed j used unfinished

theorem append (fresh : (q.jobs j).id = none) (known : j < q.jobCount) : DictInv (q.append j) := by
  -- the deque with the job numbered, before the eviction
  let s : JobsQueue := { q.setJob j (fun job => { job with id := some (q.count + 1) }) with
    count := q.count + 1 }
  have own : (s.jobs j).id = some (q.count + 1) := by simp [s, JobsQueue.setJob]
  have other : ∀ k, k ≠ j → s.jobs k = q.jobs k := fun k different => by
    simp [s, JobsQueue.setJob, different]
  have state : ∀ k, (s.jobs k).state = (q.jobs k).state ∧
      (s.jobs k).handedOut = (q.jobs k).handedOut := fun k => by
    by_cases same : k = j
    all_goals simp [s, JobsQueue.setJob, same]
  have absent : ∀ entry ∈ q.dict, entry.2 ≠ j := by
    rintro entry mem rfl
    simp [dict.numbered entry mem] at fresh
  have numbered : DictInv s := by
    refine ⟨fun entry mem => ?_, fun k i id => ?_, fun k m i first second => ?_, dict.known,
      fun k used unfinished => ?_⟩
    · rw [other _ (absent entry mem)]
      exact dict.numbered entry mem
    · by_cases same : k = j
      · rw [same, own] at id
        exact (Option.some.inj id).ge
      · rw [other k same] at id
        exact (dict.bounded k i id).trans (Nat.le_succ _)
    · by_cases same : k = j <;> by_cases same' : m = j
      · rw [same, same']
      · rw [same, own] at first
        rw [other m same', ← first] at second
        exact absurd (dict.bounded m _ second) (by omega)
      · rw [same', own] at second
        rw [other k same, ← second] at first
        exact absurd (dict.bounded k _ first) (by omega)
      · rw [other k same] at first
        rw [other m same'] at second
        exact dict.distinct k m i first second
    · rw [JobsQueue.InUse, (state k).2] at used
      rw [(state k).1] at unfinished
      exact dict.listed k used unfinished
  obtain ⟨rest, evicted⟩ := s.evict_rest
  have shape : q.append j = { s with
      dict := s.evict.dict ++ [(q.count + 1, j)], queue := q.queue ++ [j] } := by
    change { s.evict with
      dict := s.evict.dict ++ [(q.count + 1, j)], queue := s.evict.queue ++ [j] } = _
    rw [evicted]
    rfl
  have mem : ∀ entry, entry ∈ s.evict.dict ++ [(q.count + 1, j)] →
      entry ∈ q.dict ∨ entry = (q.count + 1, j) := fun entry inside =>
    (mem_append.mp inside).imp (evict_sublist s).mem mem_singleton.mp
  rw [shape]
  refine ⟨fun entry inside => ?_, numbered.bounded, numbered.distinct, fun entry inside => ?_, ?_⟩
  · obtain old | rfl := mem entry inside
    · exact numbered.numbered entry old
    · exact own
  · obtain old | rfl := mem entry inside
    · exact dict.known entry old
    · exact known
  · intro k used unfinished
    by_cases same : k = j
    · exact ⟨q.count + 1, mem_append_right _ (by simp [same])⟩
    · have before : q.InUse k := by
        refine used.imp (fun inside => ?_) fun taken => ?_
        · simpa [same] using inside
        · rwa [← (state k).2]
      obtain ⟨i, entry⟩ := numbered.listed k
        (before.imp id fun taken => (state k).2.trans taken) unfinished
      exact ⟨i, mem_append_left _ (numbered.mem_evict entry unfinished)⟩

theorem enqueue (fresh : (q.jobs j).id = none)
    (known : j < q.jobCount) : DictInv (q.enqueue j).1 := by
  have joined : ∀ k, DictInv (q.setJob k fun job =>
      { job with messageIds := job.messageIds ++ (q.jobs j).messageIds }) :=
    fun k => dict.setJob k rfl id id
  have appended := dict.append fresh known
  unfold JobsQueue.enqueue
  split
  · exact dict
  · split_ifs
    · exact dict
    · dsimp only
      split_ifs <;> exact joined _
  · dsimp only
    split_ifs
    · exact ⟨appended.numbered, appended.bounded, appended.distinct, appended.known,
        appended.listed⟩
    · exact appended

theorem add (inv : LockInv q) (spec : JobSpec) (info : Option AuditInfo) :
    DictInv (q.add (submitted q spec info)).1 := by
  have allocated : DictInv (q.alloc (submitted q spec info)) := dict.alloc inv rfl rfl
  cases named : spec.getLockName with
  | error e =>
    rwa [add_of_error (submitted q spec info) named]
  | ok name =>
    obtain ⟨prepared, -⟩ : Prepared q _ (submitted q spec info) q.jobCount ∧ _ :=
      inv.handleLock rfl rfl rfl named
    have same := SameDict.handleLock (q.alloc (submitted q spec info)) q.jobCount name
    have entered : DictInv ((q.alloc (submitted q spec info)).handleLock q.jobCount name) := by
      have kept : ∀ k, (((q.alloc (submitted q spec info)).handleLock q.jobCount name).jobs
            k).handedOut = ((q.alloc (submitted q spec info)).jobs k).handedOut ∧
          (((q.alloc (submitted q spec info)).handleLock q.jobCount name).jobs k).state =
            ((q.alloc (submitted q spec info)).jobs k).state := by
        intro k
        rw [alloc_job]
        split_ifs with fresh
        · obtain ⟨_, _, own⟩ := prepared.own
          rw [fresh, own]
          exact ⟨rfl, rfl⟩
        · obtain ⟨_, _, other⟩ := prepared.other k fresh
          rw [other]
          exact ⟨rfl, rfl⟩
      refine allocated.same same fun k used unfinished => ?_
      rw [JobsQueue.InUse, prepared.queue, (kept k).1] at used
      rw [(kept k).2] at unfinished
      exact ⟨used, unfinished⟩
    rw [add_of_ok (submitted q spec info) named]
    refine entered.enqueue ?_ ?_
    · rw [same.id, alloc_job, if_pos rfl]
      rfl
    · rw [prepared.jobCount]
      exact Nat.lt_succ_self _

omit dict

theorem terminal_of_moves {first second : State}
    (moves : second = first ∨ first.moves second = true)
    (unfinished : second.terminal = false) : first.terminal = false := by
  cases first <;> cases second <;> simp_all [State.moves, State.terminal]

theorem cleanup_dict {outcome : Option Raised} (pc : (q.jobs j).pc = .cleanup)
    (taken : Jobs.step q (.run j outcome) = some q') :
    SameDict q q' ∨ ∃ id, (q.jobs j).id = some id ∧ SameDict (q.remove id) q' := by
  simp only [Jobs.step] at taken
  split_ifs at taken
  simp only [JobsQueue.run, pc] at taken
  cases taken
  have ended : ∀ r : JobsQueue, SameDict r (r.setJob j fun job => { job with pc := .ended }) :=
    fun r => .setJob r j rfl
  split_ifs
  · split
    · rename_i id own
      exact .inr ⟨id, own, ended _⟩
    · exact .inl (ended _)
  · exact .inl (ended _)

theorem used_before (inv : LockInv q) (phase : ∀ j, (q.jobs j).Phase)
    (taken : Jobs.step q a = some q') (silent : ∀ spec info, a ≠ .submit spec info) (j : JobRef)
    (used : q'.InUse j) (unfinished : (q'.jobs j).state.terminal = false) :
    q.InUse j ∧ (q.jobs j).state.terminal = false := by
  cases inv.queue_step taken with
  | shrunk _ before =>
    have inUse := (before j used).1
    have moves := state_moves (phase j) (inv.inUse_known inUse) (step_job inv taken j)
    exact ⟨inUse, terminal_of_moves moves unfinished⟩
  | joined spec info => exact absurd rfl (silent spec info)

theorem remove (dict : DictInv q) (inv : LockInv q) (phase : ∀ j, (q.jobs j).Phase)
    (pc : (q.jobs j).pc = .cleanup) (own : (q.jobs j).id = some id) :
    DictInv (q.remove id) := by
  have unused : ¬ q.InUse j := by
    rintro (mem | handed)
    · rw [(inv.queued j mem).2.2] at pc
      cases pc
    · have released := phase j
      simp only [Job.Phase, pc] at released
      rw [released.1] at handed
      cases handed
  refine ⟨fun entry mem => dict.numbered entry (mem_of_mem_filter mem), dict.bounded,
    dict.distinct, fun entry mem => dict.known entry (mem_of_mem_filter mem), ?_⟩
  intro k used unfinished
  obtain ⟨i, mem⟩ := dict.listed k used unfinished
  refine ⟨i, dict.mem_remove mem own ?_⟩
  rintro rfl
  exact unused used

theorem step (dict : DictInv q) (inv : LockInv q) (phase : ∀ j, (q.jobs j).Phase)
    (taken : Jobs.step q a = some q') : DictInv q' := by
  have before := used_before inv phase taken
  cases step_shape taken with
  | submit spec => exact dict.add inv spec none
  | audited spec info kept =>
    refine (dict.add inv spec (some info)).same (.callWithAudit q spec info)
      fun j used unfinished => ?_
    obtain ⟨_, _, _, _, same⟩ := kept.job j
    rw [same] at unfinished
    refine ⟨(kept.inUse ?_).mp used, unfinished⟩
    rw [same]
  | next _ taken =>
    refine dict.same ?_ (before (by simp))
    obtain ⟨-, ⟨j, -, rfl⟩ | ⟨-, rfl⟩⟩ := inv.next_cases taken
    · exact .take q j
    · exact ⟨rfl, rfl, rfl, fun _ => rfl⟩
  | line j outcome plain =>
    refine dict.same (.setJob q j ?_) (before (by simp))
    obtain ⟨_, _, _, _, _, _, _, ran⟩ := Job.runLine_ran (q.jobs j) outcome
    rw [ran]
  | release j outcome r pc released =>
    have same : SameDict q r := by
      rw [inv.releaseLock_rest (inv.releasing pc) released]
      exact ⟨rfl, rfl, rfl, fun _ => rfl⟩
    exact dict.same (same.trans (.setJob r j rfl)) (before (by simp))
  | releaseRaised j outcome r pc raised => exact absurd raised (inv.releaseLock_ne_error pc r)
  | onFinish j outcome pc =>
    refine dict.same ((SameDict.callOnFinishCb q j outcome).trans (.setJob _ j ?_))
      (before (by simp))
    cases (q.callOnFinishCb j outcome).2 <;> rfl
  | cleanup j outcome r pc removed =>
    obtain same | ⟨id, own, same⟩ := cleanup_dict pc taken
    · exact dict.same same (before (by simp))
    · exact (dict.remove inv phase pc own).same same (before (by simp))
  | abort j => exact dict.same (.setJob q j rfl) (before (by simp))
  | abortLine j i job aborted =>
    refine dict.same (.setJob q j ?_) (before (by simp))
    obtain ⟨_, _, _, rfl⟩ := Job.abortLine_rest aborted
    rfl

theorem reach {ok : JobsQueue → Label → Prop} (reached : Reach Jobs.step ok {} q) : DictInv q :=
  reached.invariant_of_reach DictInv.init fun _ _ _ before dict _ taken =>
    dict.step (LockInv.reach before) (reach_phase before) taken

end DictInv

theorem JobsQueue.Refers.reach {ok : JobsQueue → Label → Prop} (reached : Reach Jobs.step ok {} q) :
    q.Refers :=
  ⟨fun k mem => ((LockInv.reach reached).queued k mem).1, (DictInv.reach reached).known⟩

/-- In every interleaving each unfinished job that waits or runs has one entry of the deque, whose
id no other entry has, and the queue holds jobs that wait, each once. -/
theorem unfinished_jobs_listed {ok : JobsQueue → Label → Prop} (reached : Reach Jobs.step ok {} q) :
    (q.queue.Nodup ∧ ∀ j ∈ q.queue, (q.jobs j).state = .waiting) ∧
    ∀ j, q.InUse j → (q.jobs j).state.terminal = false →
      ∃ i, (i, j) ∈ q.dict ∧ ∀ entry ∈ q.dict, entry.1 = i ∨ entry.2 = j → entry = (i, j) := by
  have locks := LockInv.reach reached
  have dict := DictInv.reach reached
  refine ⟨⟨locks.nodup, fun j queued => ?_⟩, fun j used unfinished => ?_⟩
  · have phase := reach_phase reached j
    simp only [Job.Phase, (locks.queued j queued).2.2] at phase
    exact phase.2.2
  · obtain ⟨i, mem⟩ := dict.listed j used unfinished
    refine ⟨i, mem, fun entry inside same => ?_⟩
    have own := dict.numbered entry inside
    have id := dict.numbered _ mem
    rcases same with rfl | rfl
    · exact Prod.ext rfl (dict.distinct _ _ _ own id)
    · exact Prod.ext (Option.some.inj (own.symm.trans id)) rfl

/-- One job has been handed out and its run has begun, another of the same lock waits. -/
theorem unfinished_jobs_listed_submitted : ∃ q, Reach Jobs.step Always {} q ∧
    (q.jobs 0).state = .running ∧ q.queue = [1] ∧ ∀ j ∈ [0, 1],
      ∃ i, (i, j) ∈ q.dict ∧ ∀ entry ∈ q.dict, entry.1 = i ∨ entry.2 = j → entry = (i, j) := by
  let spec : JobSpec := { options := { lock := .constant (some "tank") } }
  obtain ⟨q, reached, running, waiting, taken⟩ : ∃ q, Reach Jobs.step Always {} q ∧
      (q.jobs 0).state = .running ∧ q.queue = [1] ∧ (q.jobs 0).handedOut = true :=
    exists_reach_of_exec
      [.submit spec none, .submit spec none, .next, .run 0 none, .run 0 none, .run 0 none]
      (by decide +kernel)
  have listed := unfinished_jobs_listed reached
  have waits := listed.1.2 1 (waiting ▸ .head _)
  refine ⟨q, reached, running, waiting, fun j mem => ?_⟩
  rcases List.mem_pair.mp mem with rfl | rfl
  · exact listed.2 0 (.inr taken) (by rw [running]; rfl)
  · exact listed.2 1 (.inl (waiting ▸ .head _)) (by rw [waits]; rfl)

end TruenasMiddleware.Jobs
