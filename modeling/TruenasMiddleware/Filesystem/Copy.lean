import Mathlib.Algebra.GroupWithZero.Nat

/-! How `utils/filesystem/copy.py` copies one file, into a destination that is empty. -/

namespace TruenasMiddleware.Filesystem

open List

variable {β : Type}

/-- A file to copy, and what the kernel does: at each offset a call moves as many bytes as it likes,
at least one if any are left. -/
structure Copying (β : Type) where
  source : List β
  split : Nat → Nat
  /-- `copy_file_range` fails with `EXDEV`. -/
  exdev : Bool

/-- A buffered writer: what it holds back when everything has been written to it. -/
structure Writer (β : Type) where
  buffer : Nat
  held : List β → Nat
  held_le : ∀ content, held content ≤ min buffer content.length

/-- The loops of `clone_file` and `copy_sendfile`. The file position that `sendfile` writes to is
the offset, too. -/
def transfer (file : Copying β) (offset : Nat) (dst : List β) : Nat × List β :=
  if offset < file.source.length then
    let moved := (file.source.drop offset).take (max 1 (file.split offset))
    transfer file (offset + moved.length)
      (dst.take offset ++ moved ++ dst.drop (offset + moved.length))
  else (offset, dst)
termination_by file.source.length - offset
decreasing_by
  simp only [length_take, length_drop]
  omega

variable (writer : Writer β) (file : Copying β)

/-- The size is asked for before the writer is flushed, which happens when it is collected. -/
def copyFileUserspace : Nat × List β :=
  (file.source.length - writer.held file.source, file.source)

def copySendfile : Nat × List β :=
  let copied := transfer file 0 []
  if copied.1 = 0 then copyFileUserspace writer file else copied

def cloneFile : Option (Nat × List β) :=
  if file.exdev then none else some (transfer file 0 [])

def cloneOrCopyFile : Nat × List β := (cloneFile file).getD (copySendfile writer file)

inductive CopyTreeOp
  | default
  | clone
  | sendfile
  | userspace
deriving DecidableEq

def CopyTreeOp.copy : CopyTreeOp → Option (Nat × List β)
  | .default => some (cloneOrCopyFile writer file)
  | .clone => cloneFile file
  | .sendfile => some (copySendfile writer file)
  | .userspace => some (copyFileUserspace writer file)

def copytreeBytes (op : CopyTreeOp) : List (Copying β) → Option Nat
  | [] => some 0
  | file :: files =>
    (op.copy writer file).bind fun copied => (copytreeBytes op files).map (copied.1 + ·)

def Copying.Whole (copied : Nat × List β) : Prop := copied = (file.source.length, file.source)

theorem transfer_whole {offset : Nat} (within : offset ≤ file.source.length) :
    file.Whole (transfer file offset (file.source.take offset)) := by
  rw [transfer]
  split
  · let moved := (file.source.drop offset).take (max 1 (file.split offset))
    have length : moved.length = min (max 1 (file.split offset)) (file.source.length - offset) := by
      simp [moved]
    have extended : (file.source.take offset).take offset ++ moved ++
        (file.source.take offset).drop (offset + moved.length) =
          file.source.take (offset + moved.length) := by
      rw [drop_eq_nil_of_le (by rw [length_take]; omega), append_nil, take_take,
        Nat.min_self, take_add, length]
      simp [moved]
    show file.Whole (transfer file (offset + moved.length) _)
    rw [extended]
    exact transfer_whole (by omega)
  · have eq : offset = file.source.length := by omega
    rw [Copying.Whole, eq, take_length]
termination_by file.source.length - offset
decreasing_by
  simp only [length_take, length_drop]
  omega

theorem copyFileUserspace_whole_iff :
    file.Whole (copyFileUserspace writer file) ↔ writer.held file.source = 0 := by
  have bound := writer.held_le file.source
  simp only [Copying.Whole, copyFileUserspace, Prod.mk.injEq, and_true]
  omega

theorem copySendfile_whole : file.Whole (copySendfile writer file) := by
  have whole : file.Whole (transfer file 0 []) := transfer_whole file (Nat.zero_le _)
  have bound := writer.held_le file.source
  rw [copySendfile]
  split
  · rename_i empty
    rw [whole] at empty
    exact (copyFileUserspace_whole_iff writer file).mpr (by simp only at empty; omega)
  · exact whole

variable {copied : Nat × List β} {op : CopyTreeOp}

theorem cloneFile_whole (cloned : cloneFile file = some copied) : file.Whole copied := by
  rw [cloneFile] at cloned
  split at cloned <;> cases cloned
  exact transfer_whole file (Nat.zero_le _)

theorem cloneOrCopyFile_whole : file.Whole (cloneOrCopyFile writer file) := by
  rw [cloneOrCopyFile]
  cases cloned : cloneFile file with
  | none => exact copySendfile_whole writer file
  | some copied => exact cloneFile_whole file cloned

theorem CopyTreeOp.size_copy (run : op.copy writer file = some copied) :
    copied.1 = file.source.length - if op = .userspace then writer.held file.source else 0 := by
  cases op with
  | default =>
    cases run
    rw [cloneOrCopyFile_whole writer file]
    rfl
  | clone =>
    rw [cloneFile_whole file run]
    rfl
  | sendfile =>
    cases run
    rw [copySendfile_whole writer file]
    rfl
  | userspace =>
    cases run
    rfl

theorem copytreeBytes_iff {files : List (Copying β)} {total : Nat}
    (run : copytreeBytes writer op files = some total) :
    total ≤ (files.map (·.source.length)).sum ∧ (total = (files.map (·.source.length)).sum ↔
      (op = .userspace → ∀ file ∈ files, writer.held file.source = 0)) := by
  induction files generalizing total with
  | nil =>
    cases run
    simp
  | cons file files ih =>
    obtain ⟨copied, first, rest⟩ := Option.bind_eq_some_iff.mp run
    obtain ⟨others, counted, rfl⟩ := Option.map_eq_some_iff.mp rest
    obtain ⟨bound, iff⟩ := ih counted
    have size := op.size_copy writer file first
    have held := writer.held_le file.source
    simp only [map_cons, sum_cons, forall_mem_cons]
    by_cases slow : op = .userspace
    · simp only [slow, if_true, forall_const] at size iff ⊢
      rw [← iff]
      omega
    · simp only [slow, if_false, false_implies, iff_true] at size iff ⊢
      omega

/-- Every method copies the whole file and says so, but for the copy in user space, whose number is
right exactly if the writer holds nothing back; the byte counter of a tree likewise. -/
theorem copy_methods_iff :
    (∀ file : Copying β, (∀ copied, cloneFile file = some copied → file.Whole copied) ∧
      (cloneFile file = none ↔ file.exdev = true) ∧ file.Whole (copySendfile writer file) ∧
      file.Whole (cloneOrCopyFile writer file) ∧ (copyFileUserspace writer file).2 = file.source ∧
      (file.Whole (copyFileUserspace writer file) ↔ writer.held file.source = 0)) ∧
    ∀ op files total, copytreeBytes writer op files = some total →
      (total = (files.map (·.source.length)).sum ↔
        (op = .userspace → ∀ file ∈ files, writer.held file.source = 0)) := by
  refine ⟨fun file => ⟨fun _ => cloneFile_whole file, ?_, copySendfile_whole writer file,
    cloneOrCopyFile_whole writer file, rfl, copyFileUserspace_whole_iff writer file⟩,
    fun op files total run => (copytreeBytes_iff writer run).2⟩
  rw [cloneFile]
  split <;> simp_all

theorem userspace_returns_zero :
    (copyFileUserspace ⟨8192, fun content => min 8192 content.length, fun _ => Nat.le_refl _⟩
      ⟨[()], fun _ => 1, true⟩).1 = 0 :=
  rfl

end TruenasMiddleware.Filesystem
