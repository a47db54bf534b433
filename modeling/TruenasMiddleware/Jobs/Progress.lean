import TruenasMiddleware.Foundation.Transition
import Mathlib.Algebra.Order.Ring.Unbundled.Rat

/-!
`Job.set_progress` on one job, and `JobProgressBuffer` in front of it.

The buffer keeps at most one pending body. A later call replaces that body, or
drops it when it is applied at once; it is not merged with it. The components
the pending body gave are therefore lost unless the later call gives them too.
-/

namespace TruenasMiddleware.Jobs

open Transition Option

variable {ε β : Type*}

structure Progress (ε : Type*) where
  percent : Int := 0
  description : String := ""
  extra : Option ε := none
deriving DecidableEq

structure ProgressBody (ε : Type*) where
  percent : Option ℚ := none
  description : Option String := none
  extra : Option ε := none

def toInt (percent : ℚ) : Int := percent.num.tdiv percent.den

def assign [DecidableEq β] (given : Option β) (old : β) : β × Bool :=
  match given with
  | none => (old, false)
  | some new => if old ≠ new then (new, true) else (old, false)

theorem assign_fst [DecidableEq β] (given : Option β) (old : β) :
    (assign given old).1 = given.getD old := by
  unfold assign
  split
  · rfl
  · split_ifs with differs
    · rfl
    · exact not_not.mp differs

section Update

variable [DecidableEq ε] (truthy : ε → Bool)

namespace ProgressBody

variable (body : ProgressBody ε)

def newPercent : Option Int := body.percent.map toInt

def newDescription : Option String := body.description.filter (· ≠ "")

def newExtra : Option (Option ε) := (body.extra.filter truthy).map some

end ProgressBody

namespace Progress

variable (body : ProgressBody ε)

def setProgress (progress : Progress ε) : Progress ε × Bool :=
  let percent := assign body.newPercent progress.percent
  let description := assign body.newDescription progress.description
  let extra := assign (body.newExtra truthy) progress.extra
  (⟨percent.1, description.1, extra.1⟩, percent.2 || description.2 || extra.2)

def set (progress : Progress ε) : Progress ε :=
  (progress.setProgress truthy body).1

theorem set_eq (progress : Progress ε) :
    progress.set truthy body = ⟨body.newPercent.getD progress.percent,
      body.newDescription.getD progress.description,
      (body.newExtra truthy).getD progress.extra⟩ := by
  simp only [set, setProgress, assign_fst]

end Progress

/-- A component keeps its value when an earlier call is left out: the later one
gives it, or the earlier one would not have changed it. -/
def Kept (later earlier : Option β) (old : β) : Prop := later.isSome ∨ earlier.getD old = old

instance [DecidableEq β] (later earlier : Option β) (old : β) :
    Decidable (Kept later earlier old) :=
  inferInstanceAs (Decidable (_ ∨ _))

theorem kept_iff (later earlier : Option β) (old : β) :
    later.getD old = later.getD (earlier.getD old) ↔ Kept later earlier old := by
  cases later with
  | none => simp [Kept, eq_comm]
  | some new => simp [Kept]

structure Covers (later earlier : ProgressBody ε) (progress : Progress ε) : Prop where
  percent : Kept later.newPercent earlier.newPercent progress.percent
  description : Kept later.newDescription earlier.newDescription progress.description
  extra : Kept (later.newExtra truthy) (earlier.newExtra truthy) progress.extra

theorem covers_iff (later earlier : ProgressBody ε) (progress : Progress ε) :
    progress.set truthy later = (progress.set truthy earlier).set truthy later ↔
      Covers truthy later earlier progress := by
  simp only [Progress.set_eq, Progress.mk.injEq, kept_iff]
  exact ⟨fun ⟨percent, description, extra⟩ => ⟨percent, description, extra⟩,
    fun ⟨percent, description, extra⟩ => ⟨percent, description, extra⟩⟩

instance (later earlier : ProgressBody ε) (progress : Progress ε) :
    Decidable (Covers truthy later earlier progress) :=
  decidable_of_iff _ (covers_iff truthy later earlier progress)

end Update

/-- The buffer with the progress of its job. Times are those of `time.monotonic()`,
which is also the clock of the event loop. -/
structure JobProgressBuffer (ε : Type*) where
  job : Progress ε := {}
  interval : ℚ := 1
  lastUpdateAt : ℚ := 0
  pendingUpdateBody : Option (ProgressBody ε) := none
  /-- When the timer of `call_later` is due. -/
  pendingUpdate : Option ℚ := none

namespace JobProgressBuffer

variable [DecidableEq ε] (truthy : ε → Bool)

def setProgress (t : ℚ) (body : ProgressBody ε) (buffer : JobProgressBuffer ε) :
    JobProgressBuffer ε :=
  if t - buffer.lastUpdateAt ≥ buffer.interval then
    let buffer := if buffer.pendingUpdate.isSome then
        { buffer with pendingUpdateBody := none, pendingUpdate := none }
      else buffer
    { buffer with lastUpdateAt := t, job := buffer.job.set truthy body }
  else
    let buffer := { buffer with pendingUpdateBody := some body }
    if buffer.pendingUpdate.isNone then
      { buffer with pendingUpdate := some (t + buffer.interval) }
    else buffer

/-- `_do_pending_update`; `none` is its failed assertion. -/
def doPendingUpdate (t : ℚ) (buffer : JobProgressBuffer ε) : Option (JobProgressBuffer ε) :=
  buffer.pendingUpdateBody.map fun body =>
    { buffer with
      lastUpdateAt := t
      job := buffer.job.set truthy body
      pendingUpdateBody := none
      pendingUpdate := none }

def flush (t : ℚ) (buffer : JobProgressBuffer ε) : Option (JobProgressBuffer ε) :=
  if buffer.pendingUpdate.isSome then buffer.doPendingUpdate truthy t else some buffer

def Agrees (buffer : JobProgressBuffer ε) : Prop :=
  buffer.pendingUpdate.isSome = buffer.pendingUpdateBody.isSome

def settled (buffer : JobProgressBuffer ε) : Progress ε :=
  match buffer.pendingUpdateBody with
  | none => buffer.job
  | some body => buffer.job.set truthy body

variable {truthy} {buffer buffer' : JobProgressBuffer ε} {t : ℚ} {body : ProgressBody ε}

theorem setProgress_spec (agrees : buffer.Agrees) : (buffer.setProgress truthy t body).Agrees ∧
      (buffer.setProgress truthy t body).settled truthy = buffer.job.set truthy body := by
  unfold setProgress Agrees at *
  cases timer : buffer.pendingUpdate with
  | none =>
    have none_pending : buffer.pendingUpdateBody = none := by simpa [timer] using agrees
    split_ifs <;> simp [settled, timer, none_pending] at *
  | some due => split_ifs <;> simp [settled, timer] at *

theorem doPendingUpdate_spec (done : buffer.doPendingUpdate truthy t = some buffer') :
    buffer'.Agrees ∧ buffer'.settled truthy = buffer.settled truthy ∧
      buffer'.job = buffer.settled truthy := by
  obtain ⟨body, pending, rfl⟩ := map_eq_some_iff.mp done
  simp [Agrees, settled, pending]

theorem flush_spec (truthy : ε → Bool) (agrees : buffer.Agrees) (t : ℚ) :
    ∃ after, buffer.flush truthy t = some after ∧ after.job = buffer.settled truthy := by
  unfold flush
  split_ifs with timer
  · obtain ⟨body, pending⟩ := isSome_iff_exists.mp (agrees.symm.trans timer)
    obtain ⟨after, done⟩ : ∃ after, buffer.doPendingUpdate truthy t = some after := by
      rw [doPendingUpdate, pending]
      exact ⟨_, rfl⟩
    exact ⟨after, done, (doPendingUpdate_spec done).2.2⟩
  · refine ⟨buffer, rfl, ?_⟩
    have none_pending : buffer.pendingUpdateBody = none := by
      rw [← not_isSome_iff_eq_none, ← agrees]
      exact timer
    rw [settled, none_pending]

end JobProgressBuffer

structure Reporting (ε : Type*) where
  buffer : JobProgressBuffer ε
  direct : Progress ε

namespace Reporting

inductive Label (ε : Type*)
  | setProgress (t : ℚ) (body : ProgressBody ε)
  | timer (t : ℚ)

variable [DecidableEq ε] (truthy : ε → Bool)

def step (s : Reporting ε) : Label ε → Option (Reporting ε)
  | .setProgress t body =>
    some ⟨s.buffer.setProgress truthy t body, s.direct.set truthy body⟩
  | .timer t =>
    if s.buffer.pendingUpdate.any (· ≤ t) then
      (s.buffer.doPendingUpdate truthy t).map fun buffer => { s with buffer }
    else none

/-- A call gives every component that it takes away with the pending body. -/
def Covered (s : Reporting ε) : Label ε → Prop
  | .setProgress _ body =>
    ∀ pending ∈ s.buffer.pendingUpdateBody, Covers truthy body pending s.buffer.job
  | .timer _ => True

instance (s : Reporting ε) : (label : Label ε) → Decidable (Covered truthy s label)
  | .setProgress _ _ => inferInstanceAs (Decidable (∀ _ ∈ _, _))
  | .timer _ => .isTrue trivial

def start (interval : ℚ) (progress : Progress ε) : Reporting ε :=
  ⟨{ job := progress, interval }, progress⟩

/-- Flushing the buffer now leaves the job as the direct calls do. -/
def Lossless (s : Reporting ε) : Prop :=
  ∀ t, ∃ after, s.buffer.flush truthy t = some after ∧ after.job = s.direct

variable {truthy} {s s' : Reporting ε} {label : Label ε}

theorem lossless_iff (agrees : s.buffer.Agrees) :
    Lossless truthy s ↔ s.buffer.settled truthy = s.direct := by
  constructor
  · intro lossless
    obtain ⟨after, flushed, eq⟩ := lossless 0
    obtain ⟨other, flushed', settled⟩ := JobProgressBuffer.flush_spec truthy agrees 0
    cases flushed.symm.trans flushed'
    exact settled.symm.trans eq
  · intro settled t
    obtain ⟨after, flushed, eq⟩ := JobProgressBuffer.flush_spec truthy agrees t
    exact ⟨after, flushed, eq.trans settled⟩

theorem agrees_step (agrees : s.buffer.Agrees) (taken : step truthy s label = some s') :
    s'.buffer.Agrees := by
  cases label with
  | setProgress t body =>
    cases taken
    exact (JobProgressBuffer.setProgress_spec agrees).1
  | timer t =>
    simp only [step] at taken
    split_ifs at taken
    obtain ⟨buffer, done, rfl⟩ := map_eq_some_iff.mp taken
    exact (JobProgressBuffer.doPendingUpdate_spec done).1

theorem settled_step_iff (agrees : s.buffer.Agrees) (settled : s.buffer.settled truthy = s.direct)
    (taken : step truthy s label = some s') :
    s'.buffer.settled truthy = s'.direct ↔ Covered truthy s label := by
  cases label with
  | setProgress t body =>
    cases taken
    simp only [(JobProgressBuffer.setProgress_spec agrees).2, Covered, ← settled]
    unfold JobProgressBuffer.settled
    cases pending : s.buffer.pendingUpdateBody with
    | none => simp
    | some earlier => simpa using covers_iff truthy body earlier s.buffer.job
  | timer t =>
    simp only [step] at taken
    split_ifs at taken
    obtain ⟨buffer, done, rfl⟩ := map_eq_some_iff.mp taken
    exact iff_of_true ((JobProgressBuffer.doPendingUpdate_spec done).2.1.trans settled) trivial

/-- Whatever the times of the calls and of the timer: as long as every call
covers the pending body it replaces or drops, the flushed buffer leaves the
progress of the direct calls, and the first call that does not cover one
leaves another progress. -/
theorem flush_eq_direct (truthy : ε → Bool) (interval : ℚ) (progress : Progress ε) :
    ∀ s, Reach (step truthy) (Covered truthy) (start interval progress) s →
      Lossless truthy s ∧ ∀ label s', step truthy s label = some s' →
        (Lossless truthy s' ↔ Covered truthy s label) := by
  intro s reached
  have kept : s.buffer.Agrees ∧ s.buffer.settled truthy = s.direct := by
    refine reached.invariant (P := fun s => s.buffer.Agrees ∧ s.buffer.settled truthy = s.direct)
      ⟨?_, ?_⟩ fun _ _ _ kept covered taken =>
        ⟨agrees_step kept.1 taken, (settled_step_iff kept.1 kept.2 taken).mpr covered⟩
    · rfl
    · rfl
  refine ⟨(lossless_iff kept.1).mpr kept.2, fun label s' taken => ?_⟩
  rw [lossless_iff (agrees_step kept.1 taken), settled_step_iff kept.1 kept.2 taken]

theorem flush_eq_direct_covered :
    ∃ s : Reporting Nat, Reach (step (· ≠ 0)) (Covered (· ≠ 0)) (start 1 {}) s ∧
      s.direct.percent = 9 ∧ Lossless (· ≠ 0) s := by
  exact exists_reach_of_run (P := fun s => s.direct.percent = 9)
    [.setProgress 5 { percent := some 1 }, .setProgress 5 { percent := some (17 / 2) },
      .setProgress 6 { percent := some 9, description := some "copying" }]
    (by decide +kernel) fun s reached percent => ⟨percent, (flush_eq_direct _ _ _ s reached).1⟩

/-- A description held back by the interval is replaced by a percentage. -/
theorem buffer_loses_description : ∃ s : Reporting Nat, Reach (step (· ≠ 0)) Always (start 1 {}) s ∧
      ((s.buffer.flush (· ≠ 0) 6).map fun after => after.job.description) = some "" ∧
      s.direct.description = "copying" := by
  apply exists_reach_of_exec [.setProgress 5 { percent := some 1 },
    .setProgress (11 / 2) { description := some "copying" },
    .setProgress (23 / 4) { percent := some 2 }]
  decide +kernel

end Reporting

end TruenasMiddleware.Jobs
