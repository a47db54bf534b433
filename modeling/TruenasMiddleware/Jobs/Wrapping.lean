import TruenasMiddleware.Foundation.Closure
import TruenasMiddleware.Foundation.Fallible
import TruenasMiddleware.Jobs.Progress

/-! `Job.set_progress` across jobs and `Job.wrap`, which appends the wrapping job to the `wrapped`
list of its subjob without looking at the jobs already there; `core.job_wait` makes its own job wrap
any job a caller can read. The recursion of `set_progress` is given a bound on its depth. -/

namespace TruenasMiddleware.Jobs

open Relation Transition Closure Option

structure Proxies (α ε : Type*) where
  progress : α → Progress ε := fun _ => {}
  wrapped : α → List α := fun _ => []

namespace Proxies

variable {α ε : Type*} [DecidableEq α] [DecidableEq ε] (truthy : ε → Bool)

def whole (progress : Progress ε) : ProgressBody ε where
  percent := some progress.percent
  description := some progress.description
  extra := progress.extra

/-- `job.set_progress(…)`; `none` if the recursion goes deeper than the bound. -/
def setProgress : Nat → α → ProgressBody ε → Proxies α ε → Option (Proxies α ε)
  | 0, _, _, _ => none
  | depth + 1, job, body, s =>
    let progress := Function.update s.progress job ((s.progress job).set truthy body)
    (s.wrapped job).foldlM (fun s outer => setProgress depth outer (whole (s.progress job)) s)
      { s with progress }

/-- `job.wrap(subjob)` up to the point where it waits. -/
def wrap (depth : Nat) (job subjob : α) (s : Proxies α ε) : Option (Proxies α ε) :=
  (s.setProgress truthy depth job (whole (s.progress subjob))).map fun s =>
    { s with wrapped := Function.update s.wrapped subjob (s.wrapped subjob ++ [job]) }

inductive Label (α ε : Type*)
  | setProgress (depth : Nat) (job : α) (body : ProgressBody ε)
  | wrap (depth : Nat) (job subjob : α)

def step (s : Proxies α ε) : Label α ε → Option (Proxies α ε)
  | .setProgress depth job body => s.setProgress truthy depth job body
  | .wrap depth job subjob => s.wrap truthy depth job subjob

def WrappedBy (s : Proxies α ε) (job outer : α) : Prop := outer ∈ s.wrapped job

/-- The job that wraps does not pass its progress on to the one it wraps. -/
def Fresh (s : Proxies α ε) : Label α ε → Prop
  | .wrap _ job subjob => ¬ ReflTransGen s.WrappedBy job subjob
  | .setProgress .. => True

def Terminating (s : Proxies α ε) : Prop :=
  ∀ job body, ∃ depth, (s.setProgress truthy depth job body).isSome

variable {truthy} {s s' : Proxies α ε} {job outer subjob : α} {body : ProgressBody ε} {depth : Nat}

theorem setProgress_wrapped (run : s.setProgress truthy depth job body = some s') :
    s'.wrapped = s.wrapped ∧ Acc (fun outer job => s.WrappedBy job outer) job := by
  induction depth generalizing job body s s' with
  | zero => cases run
  | succ depth ih =>
    obtain ⟨kept, inner⟩ := Fallible.foldlM_some (P := fun t => t.wrapped = s.wrapped)
      (Q := Acc fun outer job => s.WrappedBy job outer) rfl
      (fun t outer t' eq taken => by
        obtain ⟨unchanged, finite⟩ := ih taken
        refine ⟨unchanged.trans eq, ?_⟩
        simpa only [WrappedBy, eq] using finite) run
    exact ⟨kept, .intro job inner⟩

theorem setProgress_returns (truthy : ε → Bool)
    (finite : Acc (fun outer job => s.WrappedBy job outer) job) :
    ∃ n, ∀ depth, n ≤ depth → ∀ t : Proxies α ε, t.wrapped = s.wrapped → ∀ body,
      ∃ t', t.setProgress truthy depth job body = some t' := by
  induction finite with
  | intro job _ ih =>
    obtain ⟨n, enough⟩ := exists_common_bound (s.wrapped job) ih
    refine ⟨n + 1, fun depth above t eq body => ?_⟩
    obtain ⟨depth, rfl⟩ : ∃ k, depth = k + 1 := ⟨depth - 1, by omega⟩
    refine Fallible.exists_foldlM_some (P := fun t => t.wrapped = s.wrapped) eq
      fun u known outer mem => ?_
    have listed : outer ∈ s.wrapped job := eq ▸ mem
    obtain ⟨u', run⟩ := enough depth (by omega) outer listed u known (whole (u.progress job))
    exact ⟨u', run, (setProgress_wrapped run).1.trans known⟩

def FinitelyWrapped (s : Proxies α ε) : Prop :=
  ∃ support : Finset α, ∀ job outer, s.WrappedBy job outer → job ∈ support

theorem terminating_iff (finite : s.FinitelyWrapped) :
    Terminating truthy s ↔ ∀ job, ¬ TransGen s.WrappedBy job job := by
  constructor
  · intro terminating job
    obtain ⟨depth, returns⟩ := terminating job {}
    obtain ⟨s', run⟩ := isSome_iff_exists.mp returns
    exact not_transGen_of_acc (setProgress_wrapped run).2
  · intro acyclic job body
    obtain ⟨support, sources⟩ := finite
    obtain ⟨n, enough⟩ := setProgress_returns truthy (acc_of_acyclic sources acyclic job)
    exact ⟨n, isSome_iff_exists.mpr (enough n le_rfl s rfl body)⟩

theorem wrap_wrappedBy (run : s.wrap truthy depth job subjob = some s') (x y : α) :
    s'.WrappedBy x y ↔ s.WrappedBy x y ∨ x = subjob ∧ y = job := by
  obtain ⟨t, shown, rfl⟩ := map_eq_some_iff.mp run
  rw [WrappedBy, WrappedBy, (setProgress_wrapped shown).1]
  by_cases eq : x = subjob
  · simp [eq]
  · simp [eq]

variable {label : Label α ε}

theorem finitelyWrapped_step (finite : s.FinitelyWrapped)
    (taken : step truthy s label = some s') : s'.FinitelyWrapped := by
  obtain ⟨support, sources⟩ := finite
  cases label with
  | setProgress depth job body =>
    refine ⟨support, fun x y edge => sources x y ?_⟩
    rwa [WrappedBy, (setProgress_wrapped taken).1] at edge
  | wrap depth job subjob =>
    refine ⟨insert subjob support, fun x y edge => ?_⟩
    rcases (wrap_wrappedBy taken x y).mp edge with old | ⟨rfl, -⟩
    · exact Finset.mem_insert_of_mem (sources x y old)
    · exact Finset.mem_insert_self x support

theorem acyclic_step (acyclic : ∀ job, ¬ TransGen s.WrappedBy job job)
    (fresh : Fresh s label) (taken : step truthy s label = some s') :
    ∀ job, ¬ TransGen s'.WrappedBy job job := by
  cases label with
  | setProgress depth job body =>
    have eq : s'.WrappedBy = s.WrappedBy := by
      funext x y
      rw [WrappedBy, (setProgress_wrapped taken).1, WrappedBy]
    rwa [eq]
  | wrap depth job subjob =>
    exact (acyclic_add_iff acyclic (wrap_wrappedBy taken)).mpr fresh

/-- As long as no job wraps one that it passes its progress on to, `set_progress`
returns on every job and the jobs wrap each other without a cycle; the first
wrap that does so makes it recurse forever on some job. -/
theorem set_progress_terminates_iff (truthy : ε → Bool) :
    ∀ s : Proxies α ε, Reach (step truthy) Fresh {} s →
      Terminating truthy s ∧ (∀ job, ¬ TransGen s.WrappedBy job job) ∧
      ∀ depth job subjob s', step truthy s (.wrap depth job subjob) = some s' →
        (Terminating truthy s' ↔ ¬ ReflTransGen s.WrappedBy job subjob) := by
  intro s reached
  have kept : s.FinitelyWrapped ∧ ∀ job, ¬ TransGen s.WrappedBy job job := by
    refine reached.invariant
      (P := fun s => s.FinitelyWrapped ∧ ∀ job, ¬ TransGen s.WrappedBy job job) ⟨?_, ?_⟩
      fun _ _ _ kept fresh taken =>
        ⟨finitelyWrapped_step kept.1 taken, acyclic_step kept.2 fresh taken⟩
    · exact ⟨∅, fun _ _ edge => absurd edge List.not_mem_nil⟩
    · intro job cycle
      obtain ⟨_, edge, _⟩ := TransGen.head'_iff.mp cycle
      exact absurd edge List.not_mem_nil
  refine ⟨(terminating_iff kept.1).mpr kept.2, kept.2, fun depth job subjob s' taken => ?_⟩
  rw [terminating_iff (finitelyWrapped_step kept.1 taken)]
  exact acyclic_add_iff kept.2 (wrap_wrappedBy taken)

theorem set_progress_terminates_iff_pair :
    ∃ s : Proxies Nat Nat, Reach (step (· ≠ 0)) Fresh {} s ∧ s.wrapped 2 = [1] ∧
      Terminating (· ≠ 0) s := by
  have apart : ¬ ReflTransGen ({} : Proxies Nat Nat).WrappedBy 1 2 := by
    intro path
    rcases path.cases_head with same | ⟨_, edge, _⟩
    · cases same
    · cases edge
  have taken : (step (· ≠ 0) ({} : Proxies Nat Nat) (.wrap 1 1 2)).isSome := by decide
  obtain ⟨s, taken⟩ := isSome_iff_exists.mp taken
  have reached : Reach (step (· ≠ 0)) Fresh {} s :=
    .next (a := .wrap 1 1 2) .start apart taken
  refine ⟨s, reached, ?_, (set_progress_terminates_iff (· ≠ 0) s reached).1⟩
  cases taken
  rfl

theorem set_progress_wrapping_itself : ∃ s : Proxies Nat Nat, Reach (step (· ≠ 0)) Always {} s ∧
      ∀ depth body, s.setProgress (· ≠ 0) depth 1 body = none := by
  have taken : (step (· ≠ 0) ({} : Proxies Nat Nat) (.wrap 1 1 1)).isSome := by decide
  obtain ⟨s, taken⟩ := isSome_iff_exists.mp taken
  refine ⟨s, .next .start trivial taken, fun depth body => ?_⟩
  cases run : s.setProgress (· ≠ 0) depth 1 body with
  | none => rfl
  | some s' =>
    have loop : s.WrappedBy 1 1 := (wrap_wrappedBy taken 1 1).mpr (.inr ⟨rfl, rfl⟩)
    exact absurd (.single loop) (not_transGen_of_acc (setProgress_wrapped run).2)

end Proxies

end TruenasMiddleware.Jobs
