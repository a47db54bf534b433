import TruenasMiddleware.Foundation.Transition
import TruenasMiddleware.Jobs.Frame

/-!
The history of `JobsDeque` over adds, receptions of remote jobs, removals and
state changes. `add` evicts at most one job and only when the history is longer
than `maxlen`; `receive` takes its id first, suspends, and evicts nothing.
-/

namespace TruenasMiddleware.Jobs

open Transition List JobsQueue Prod

/-- The deque with the ids of the receptions that are in progress. -/
structure History where
  queue : JobsQueue := {}
  receiving : List Nat := []

namespace History

inductive Label
  | add (spec : JobSpec)
  /-- `receive` up to the point where it suspends. -/
  | receive
  | received (id : Nat) (spec : JobSpec) (state : State)
  | receiveFailed (id : Nat)
  | remove (id : Nat)
  | setState (j : JobRef) (state : State)

/-- The end of `JobsDeque.receive`, with the object that `Job.receive` built. -/
def insert (q : JobsQueue) (id : Nat) (spec : JobSpec) (state : State) : JobsQueue :=
  let q' := q.alloc { Job.create spec none with id := some id, state := state }
  { q' with dict := q'.dict ++ [(id, q.jobCount)] }

def step (s : History) : Label → Option History
  | .add spec =>
    some { s with queue := (s.queue.alloc (Job.create spec none)).dequeAdd s.queue.jobCount }
  | .receive =>
    let id := s.queue.count + 1
    some { queue := { s.queue with count := id }, receiving := s.receiving ++ [id] }
  | .received id spec state =>
    if id ∈ s.receiving then
      some { queue := insert s.queue id spec state, receiving := s.receiving.erase id }
    else none
  | .receiveFailed id =>
    if id ∈ s.receiving then some { s with receiving := s.receiving.erase id } else none
  | .remove id => some { s with queue := s.queue.remove id }
  | .setState j state =>
    ((s.queue.jobs j).setState state).map fun job =>
      { s with queue := s.queue.setJob j fun _ => job }

def Undivided (s : History) : Label → Prop
  | .add _ | .receive => s.receiving = []
  | .received .. | .receiveFailed _ | .remove _ | .setState .. => True

def finished (s : History) (entry : Nat × JobRef) : Bool := (s.queue.jobs entry.2).state.terminal

def finishedJobs (s : History) : Nat := s.queue.dict.countP s.finished

def newest (s : History) : Option Nat := s.queue.dict.getLast?.map fst

/-- What an eviction leaves of the entries, given which of them are finished. -/
inductive Evicted (finished : Nat × JobRef → Bool) (dict : List (Nat × JobRef)) :
    List (Nat × JobRef) → Prop
  | nothing (short : dict.length ≤ JobsQueue.maxlen ∨ dict.countP finished = 0) :
      Evicted finished dict dict
  | oldest (before after : List (Nat × JobRef)) (entry : Nat × JobRef)
      (split : dict = before ++ entry :: after) (done : finished entry = true)
      (unfinished : ∀ other ∈ before, finished other = false)
      (long : JobsQueue.maxlen < dict.length) : Evicted finished dict (before ++ after)

theorem evicted (q : JobsQueue) (nodup : (q.dict.map fst).Nodup) :
    Evicted (fun entry => (q.jobs entry.2).state.terminal) q.dict q.evict.dict := by
  unfold evict
  split_ifs with long
  · split
    · rename_i entry found
      obtain ⟨done, before, after, split, unfinished⟩ := List.find?_eq_some_iff_append.mp found
      have rest : (q.remove entry.1).dict = before ++ after := by
        have kept : ∀ other ∈ before ++ after, other.1 ≠ entry.1 := by
          intro other mem eq
          rw [split, map_append, map_cons, nodup_middle, nodup_cons, ← map_append] at nodup
          exact nodup.1 (eq ▸ mem_map_of_mem mem)
        rw [remove, split, filter_append, filter_cons_of_neg (by simp),
          ← filter_append, filter_eq_self.mpr fun other mem => by
            simpa using kept other mem]
      rw [rest]
      exact .oldest before after entry split done (by simpa using unfinished) long
    · rename_i none
      refine .nothing (.inr (countP_eq_zero.mpr fun entry mem => ?_))
      exact List.find?_eq_none.mp none entry mem
  · exact .nothing (.inl (not_lt.mp long))

variable {finished other : Nat × JobRef → Bool} {dict kept : List (Nat × JobRef)}
  (evicted : Evicted finished dict kept)
include evicted

theorem Evicted.sublist : kept.Sublist dict := by
  cases evicted with
  | nothing => exact .refl _
  | oldest before after entry split =>
    rw [split]
    exact (sublist_cons_self entry after).append_left before

theorem Evicted.bound_iff :
    kept.countP finished ≤ JobsQueue.maxlen ↔ dict.countP finished ≤ JobsQueue.maxlen + 1 := by
  have most : dict.countP finished ≤ dict.length := countP_le_length
  cases evicted with
  | nothing short => omega
  | oldest before after entry split done =>
    have count : dict.countP finished = (before ++ after).countP finished + 1 := by
      rw [split, countP_append, countP_cons_of_pos done, countP_append]
      omega
    omega

theorem Evicted.congr
    (eq : ∀ entry ∈ dict, finished entry = other entry) : Evicted other dict kept := by
  cases evicted with
  | nothing short =>
    have count : dict.countP finished = dict.countP other :=
      countP_congr fun entry mem => by rw [eq entry mem]
    exact .nothing (count ▸ short)
  | oldest before after entry split done unfinished long =>
    refine .oldest before after entry split ?_ ?_ long
    · rw [← eq entry (split ▸ by simp), done]
    · intro earlier mem
      rw [← eq earlier (split ▸ mem_append_left _ mem), unfinished earlier mem]

omit evicted

/-- Ids are taken once, and every entry refers to an existing object. -/
structure Inv (s : History) : Prop where
  ids : (s.queue.dict.map fst ++ s.receiving).Nodup
  bounded : ∀ id ∈ s.queue.dict.map fst ++ s.receiving, id ≤ s.queue.count
  known : ∀ entry ∈ s.queue.dict, entry.2 < s.queue.jobCount

variable {s s' : History} {label : Label} {spec : JobSpec}

/-- What `add` does: one eviction, and the new job with the next id behind the rest. -/
structure Added (s s' : History) (kept : List (Nat × JobRef)) : Prop where
  evicted : Evicted s.finished s.queue.dict kept
  dict : s'.queue.dict = kept ++ [(s.queue.count + 1, s.queue.jobCount)]
  count : s'.queue.count = s.queue.count + 1
  jobCount : s'.queue.jobCount = s.queue.jobCount + 1
  receiving : s'.receiving = s.receiving
  same : ∀ entry ∈ s.queue.dict, s'.finished entry = s.finished entry
  unfinished : s'.finished (s.queue.count + 1, s.queue.jobCount) = false

theorem Inv.add (inv : Inv s) (taken : step s (.add spec) = some s') : ∃ kept, Added s s' kept := by
  cases taken
  -- the deque with the new object, numbered but not yet inserted
  let q : JobsQueue := { (s.queue.alloc (Job.create spec none)).setJob s.queue.jobCount
    (fun job => { job with id := some (s.queue.count + 1) }) with count := s.queue.count + 1 }
  have old : ∀ entry ∈ s.queue.dict, (q.jobs entry.2).state = (s.queue.jobs entry.2).state := by
    intro entry mem
    simp [q, setJob, alloc, (inv.known entry mem).ne]
  have new : (q.jobs s.queue.jobCount).state = .waiting := by
    simp [q, setJob, alloc, Job.create]
  have nodup : (q.dict.map fst).Nodup := (nodup_append.mp inv.ids).1
  obtain ⟨dict, rest⟩ := q.evict_rest
  have shape : (s.queue.alloc (Job.create spec none)).dequeAdd s.queue.jobCount =
      { q.evict with dict := q.evict.dict ++ [(s.queue.count + 1, s.queue.jobCount)] } := rfl
  refine ⟨q.evict.dict, ?_, by rw [shape], ?_, ?_, rfl, ?_, ?_⟩
  · refine (History.evicted q nodup).congr fun entry mem => ?_
    rw [old entry mem, History.finished]
  · simp only [shape, rest, q]
  · simp only [shape, rest, q]
    rfl
  · intro entry mem
    simp only [History.finished, shape, rest]
    rw [old entry mem]
  · simp only [History.finished, shape, rest]
    rw [new]
    rfl

theorem Inv.step (inv : Inv s) (taken : History.step s label = some s') : Inv s' := by
  cases label with simp only [History.step] at taken
  | add spec =>
    obtain ⟨kept, added⟩ := inv.add taken
    have ids : (kept.map fst ++ s.receiving).Nodup :=
      inv.ids.sublist ((added.evicted.sublist.map fst).append_right _)
    have bounded : ∀ id ∈ kept.map fst ++ s.receiving, id ≤ s.queue.count := fun id mem =>
      inv.bounded id (((added.evicted.sublist.map fst).append_right _).mem mem)
    have split : s'.queue.dict.map fst ++ s'.receiving =
        kept.map fst ++ (s.queue.count + 1) :: s.receiving := by
      simp [added.dict, added.receiving]
    refine ⟨?_, ?_, ?_⟩
    · rw [split, nodup_middle, nodup_cons]
      exact ⟨fun mem => absurd (bounded _ mem) (by omega), ids⟩
    · intro id mem
      rw [split, mem_append, mem_cons, or_left_comm, ← mem_append] at mem
      rw [added.count]
      rcases mem with rfl | mem
      · exact le_rfl
      · exact (bounded id mem).trans (Nat.le_succ _)
    · intro entry mem
      rw [added.jobCount]
      rw [added.dict, mem_append, mem_singleton] at mem
      rcases mem with mem | rfl
      · exact (inv.known entry (added.evicted.sublist.mem mem)).trans (Nat.lt_succ_self _)
      · exact Nat.lt_succ_self _
  | receive =>
    cases taken
    refine ⟨?_, ?_, inv.known⟩
    · rw [← append_assoc, nodup_append_comm, singleton_append, nodup_cons]
      exact ⟨fun mem => absurd (inv.bounded _ mem) (by omega), inv.ids⟩
    · intro id mem
      rw [← append_assoc, mem_append, mem_singleton] at mem
      rcases mem with mem | rfl
      · exact (inv.bounded id mem).trans (Nat.le_succ _)
      · exact le_rfl
  | received id spec state =>
    split_ifs at taken with pending
    cases taken
    have moved : ((insert s.queue id spec state).dict.map fst ++ s.receiving.erase id).Perm
        (s.queue.dict.map fst ++ s.receiving) := by
      have entries : (insert s.queue id spec state).dict.map fst =
          s.queue.dict.map fst ++ [id] := by simp [insert, alloc]
      rw [entries, append_assoc]
      exact (perm_cons_erase pending).symm.append_left _
    refine ⟨moved.nodup_iff.mpr inv.ids, fun other mem => ?_, fun entry mem => ?_⟩
    · exact inv.bounded other (moved.mem_iff.mp mem)
    · have entries : (insert s.queue id spec state).dict =
          s.queue.dict ++ [(id, s.queue.jobCount)] := rfl
      rw [entries, mem_append, mem_singleton] at mem
      show entry.2 < s.queue.jobCount + 1
      rcases mem with mem | rfl
      · exact (inv.known entry mem).trans (Nat.lt_succ_self _)
      · exact Nat.lt_succ_self _
  | receiveFailed id =>
    split_ifs at taken with pending
    cases taken
    have fewer : (s.queue.dict.map fst ++ s.receiving.erase id).Sublist
        (s.queue.dict.map fst ++ s.receiving) := (erase_sublist ..).append_left _
    exact ⟨inv.ids.sublist fewer, fun other mem => inv.bounded other (fewer.mem mem), inv.known⟩
  | remove id =>
    cases taken
    have fewer : ((s.queue.remove id).dict.map fst ++ s.receiving).Sublist
        (s.queue.dict.map fst ++ s.receiving) :=
      ((filter_sublist ..).map fst).append_right _
    exact ⟨inv.ids.sublist fewer, fun other mem => inv.bounded other (fewer.mem mem),
      fun entry mem => inv.known entry (mem_of_mem_filter mem)⟩
  | setState j state =>
    obtain ⟨job, -, rfl⟩ := Option.map_eq_some_iff.mp taken
    exact { inv with }

theorem Inv.reach {start : History} {ok : History → Label → Prop} (inv : Inv start)
    (reached : Reach History.step ok start s) : Inv s :=
  reached.invariant inv fun _ _ _ kept _ taken => kept.step taken

theorem Inv.start : Inv {} := ⟨nodup_nil, fun _ => by simp, fun _ => by simp⟩

/-- The entries in the order of their ids, and at most one reception in progress,
whose id comes after them. -/
structure Ordered (s : History) : Prop where
  increasing : (s.queue.dict.map fst ++ s.receiving).Pairwise (· < ·)
  single : s.receiving.length ≤ 1

theorem Ordered.step (inv : Inv s) (ordered : Ordered s) (undivided : Undivided s label)
    (taken : History.step s label = some s') : Ordered s' := by
  obtain ⟨increasing, single⟩ := ordered
  cases label with simp only [History.step] at taken
  | add spec =>
    obtain ⟨kept, added⟩ := inv.add taken
    have none : s.receiving = [] := undivided
    rw [none, append_nil] at increasing
    have fewer := added.evicted.sublist.map fst
    refine ⟨?_, by rw [added.receiving]; exact single⟩
    rw [added.receiving, none, append_nil, added.dict, map_append, pairwise_append]
    refine ⟨increasing.sublist fewer, pairwise_singleton _ _, fun id mem other new => ?_⟩
    obtain rfl : other = s.queue.count + 1 := by simpa using new
    exact Nat.lt_succ_of_le (inv.bounded id (mem_append_left _ (fewer.mem mem)))
  | receive =>
    cases taken
    have none : s.receiving = [] := undivided
    refine ⟨?_, by simp [none]⟩
    rw [← append_assoc, pairwise_append]
    refine ⟨increasing, pairwise_singleton _ _, fun id mem other new => ?_⟩
    rw [mem_singleton.mp new]
    exact Nat.lt_succ_of_le (inv.bounded id mem)
  | received id spec state =>
    split_ifs at taken with pending
    cases taken
    obtain ⟨only, all⟩ := length_eq_one_iff.mp (Nat.le_antisymm single (length_pos_of_mem pending))
    obtain rfl : id = only := by simpa [all] using pending
    refine ⟨?_, by simp [all]⟩
    simpa [insert, alloc, all] using increasing
  | receiveFailed id =>
    split_ifs at taken with pending
    cases taken
    exact ⟨increasing.sublist ((erase_sublist ..).append_left _),
      (erase_sublist ..).length_le.trans single⟩
  | remove id =>
    cases taken
    exact ⟨increasing.sublist (((filter_sublist ..).map fst).append_right _), single⟩
  | setState j state =>
    obtain ⟨job, -, rfl⟩ := Option.map_eq_some_iff.mp taken
    exact ⟨increasing, single⟩

theorem Ordered.reach (reached : Reach History.step Undivided {} s) : Ordered s :=
  reached.invariant_of_reach ⟨List.Pairwise.nil, Nat.zero_le _⟩
    fun _ _ _ before ordered undivided taken =>
      ordered.step (Inv.start.reach before) undivided taken

theorem count_le_of_step (inv : Inv s) (taken : step s label = some s') :
    s.queue.count ≤ s'.queue.count := by
  cases label with
  | add spec =>
    obtain ⟨kept, added⟩ := inv.add taken
    exact added.count ▸ Nat.le_succ _
  | receive =>
    cases taken
    exact Nat.le_succ _
  | received id spec state | receiveFailed id =>
    simp only [step] at taken
    split_ifs at taken
    cases taken
    exact le_rfl
  | remove id =>
    cases taken
    exact le_rfl
  | setState j state =>
    obtain ⟨job, -, rfl⟩ := Option.map_eq_some_iff.mp taken
    exact le_rfl

theorem count_le_of_reach {start : History} (inv : Inv start)
    (reached : Reach step Always start s) : start.queue.count ≤ s.queue.count :=
  reached.invariant_of_reach (P := fun s => start.queue.count ≤ s.queue.count) le_rfl
    fun _ _ _ before kept _ taken => kept.trans (count_le_of_step (inv.reach before) taken)

section Add

variable {kept : List (Nat × JobRef)} (added : Added s s' kept)
include added

theorem Added.newest : s'.newest = some (s.queue.count + 1) := by
  simp [History.newest, added.dict]

variable {entry : Nat × JobRef}

theorem Added.mem_dict (inv : Inv s)
    (mem : entry ∈ s.queue.dict) : entry ∈ s'.queue.dict ↔ entry ∈ kept := by
  rw [added.dict, mem_append, mem_singleton, or_iff_left]
  rintro rfl
  exact absurd (inv.known _ mem) (lt_irrefl _)

theorem Added.finishedJobs :
    s'.finishedJobs = kept.countP s.finished := by
  rw [History.finishedJobs, added.dict, countP_append, countP_singleton, added.unfinished]
  exact countP_congr fun entry mem =>
    by rw [added.same entry (added.evicted.sublist.mem mem)]

theorem Added.evicted_first (inv : Inv s)
    (mem : entry ∈ s.queue.dict) (gone : entry ∉ s'.queue.dict) :
    s.finished entry = true ∧ ∃ before after, s.queue.dict = before ++ entry :: after ∧
      ∀ earlier ∈ before, s.finished earlier = false := by
  rw [added.mem_dict inv mem] at gone
  cases added.evicted with
  | nothing => exact absurd mem gone
  | oldest before after other split done unfinished =>
    obtain rfl : entry = other := by
      rw [split, mem_append, mem_cons] at mem
      rw [mem_append, not_or] at gone
      tauto
    exact ⟨done, before, after, split, unfinished⟩

end Add

/-- What holds of `add` after every run. Its ids increase, an unfinished job
stays, and the job that goes is the finished one that entered first, which is
also the one with the least id when no id was taken during a reception. The
number of finished jobs is within the bound afterwards exactly when at most one
was too many before. -/
theorem job_history (reached : Reach step Always {} s) (taken : step s (.add spec) = some s') :
    (∃ id, s'.newest = some id ∧ (∀ entry ∈ s.queue.dict, entry.1 < id) ∧
      (∀ reserved ∈ s.receiving, reserved < id) ∧
      ∀ t other t', Reach step Always s' t → step t (.add other) = some t' →
        ∃ later, t'.newest = some later ∧ id < later) ∧
    (∀ entry ∈ s.queue.dict, s.finished entry = false → entry ∈ s'.queue.dict) ∧
    (∀ entry ∈ s.queue.dict, entry ∉ s'.queue.dict →
      (∃ before after, s.queue.dict = before ++ entry :: after ∧
        ∀ earlier ∈ before, s.finished earlier = false) ∧
      (Reach step Undivided {} s →
        ∀ other ∈ s.queue.dict, s.finished other = true → entry.1 ≤ other.1)) ∧
    (s'.finishedJobs ≤ JobsQueue.maxlen ↔ s.finishedJobs ≤ JobsQueue.maxlen + 1) := by
  have inv := Inv.start.reach reached
  obtain ⟨kept, added⟩ := inv.add taken
  refine ⟨⟨s.queue.count + 1, added.newest, ?_, ?_, ?_⟩, ?_, ?_, ?_⟩
  · intro entry member
    exact Nat.lt_succ_of_le (inv.bounded _ (mem_append_left _ (mem_map_of_mem member)))
  · intro reserved member
    exact Nat.lt_succ_of_le (inv.bounded _ (mem_append_right _ member))
  · intro t other t' later taken'
    have inv' := inv.step taken
    obtain ⟨_, added'⟩ := (inv'.reach later).add taken'
    refine ⟨_, added'.newest, Nat.lt_succ_of_le ?_⟩
    rw [← added.count]
    exact count_le_of_reach inv' later
  · intro entry member unfinished
    by_contra gone
    have done := (added.evicted_first inv member gone).1
    rw [unfinished] at done
    cases done
  · intro entry member gone
    obtain ⟨-, before, after, split, unfinished⟩ := added.evicted_first inv member gone
    refine ⟨⟨before, after, split, unfinished⟩, fun undivided other inside done => ?_⟩
    have increasing := (Ordered.reach undivided).increasing
    rw [split, map_append, append_assoc, pairwise_append, map_cons,
      cons_append, pairwise_cons] at increasing
    rw [split, mem_append, mem_cons] at inside
    rcases inside with earlier | rfl | later
    · rw [unfinished other earlier] at done
      cases done
    · exact le_rfl
    · exact (increasing.2.1.1 other.1 (mem_append_left _ (mem_map_of_mem later))).le
  · rw [added.finishedJobs]
    exact added.evicted.bound_iff

theorem job_history_second : ∃ s s' : History, Reach step Always {} s ∧ step s (.add {}) = some s' ∧
      s.newest = some 1 ∧ s'.newest = some 2 ∧ s'.finishedJobs ≤ JobsQueue.maxlen := by
  obtain ⟨s, first⟩ : ∃ s, step {} (.add {}) = some s := ⟨_, rfl⟩
  obtain ⟨s', second⟩ : ∃ s', step s (.add {}) = some s' := ⟨_, rfl⟩
  have reached : Reach step Always {} s := .next .start trivial first
  cases first
  refine ⟨_, s', reached, second, by decide, ?_,
    (job_history reached second).2.2.2.mpr (by decide +kernel)⟩
  cases second
  decide +kernel

theorem finishedJobs_received {q : JobsQueue} (known : ∀ entry ∈ q.dict, entry.2 < q.jobCount)
    (id : Nat) (before after : List Nat) :
    finishedJobs ⟨insert q id spec .success, after⟩ = finishedJobs ⟨q, before⟩ + 1 := by
  have entries : (insert q id spec .success).dict = q.dict ++ [(id, q.jobCount)] := rfl
  have new : History.finished ⟨insert q id spec .success, after⟩ (id, q.jobCount) = true := by
    simp [History.finished, insert, alloc, State.terminal]
  rw [finishedJobs, entries, countP_append, countP_singleton, new]
  refine congrArg (· + 1) (countP_congr fun entry mem => ?_)
  simp [History.finished, insert, alloc, (known entry mem).ne]

theorem receive_many (n : Nat) :
    ∃ s, Reach step Always {} s ∧ s.receiving = [] ∧ s.finishedJobs = n := by
  induction n with
  | zero => exact ⟨{}, .start, rfl, rfl⟩
  | succ n ih =>
    obtain ⟨s, reached, none, count⟩ := ih
    let q : JobsQueue := { s.queue with count := s.queue.count + 1 }
    have begun : step s .receive = some ⟨q, [q.count]⟩ := by simp [step, none, q]
    have ended : step ⟨q, [q.count]⟩ (.received q.count {} .success) =
        some ⟨insert q q.count {} .success, []⟩ := by simp [step]
    refine ⟨_, .next (.next reached trivial begun) trivial ended, rfl, ?_⟩
    have known : ∀ entry ∈ q.dict, entry.2 < q.jobCount := (Inv.start.reach reached).known
    rw [finishedJobs_received known _ s.receiving, ← count]
    rfl

/-- 1002 finished jobs have been received: the next add leaves 1001 of them. -/
theorem finished_jobs_above_maxlen :
    ∃ s s' : History, Reach step Always {} s ∧ step s (.add {}) = some s' ∧
      JobsQueue.maxlen < s'.finishedJobs := by
  obtain ⟨s, reached, -, count⟩ := receive_many (maxlen + 2)
  obtain ⟨s', taken⟩ : ∃ s', step s (.add {}) = some s' := ⟨_, rfl⟩
  obtain ⟨kept, added⟩ := (Inv.start.reach reached).add taken
  refine ⟨s, s', reached, taken, ?_⟩
  rw [added.finishedJobs, ← not_le, added.evicted.bound_iff, ← finishedJobs, count]
  omega

end History

end TruenasMiddleware.Jobs
