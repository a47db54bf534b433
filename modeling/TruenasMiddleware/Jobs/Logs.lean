import Mathlib.Data.List.Induction

/-! The excerpt of its log that a job keeps (`Job.__close_logs`). -/

namespace TruenasMiddleware.Jobs

open List

structure Excerpt where
  head : List String := []
  tail : List String := []
  lines : Nat := 0

def lastTen (xs : List String) : List String := xs.drop (xs.length - 10)

def Excerpt.read (excerpt : Excerpt) (line : String) : Excerpt :=
  if excerpt.head.length < 10 then
    { excerpt with head := excerpt.head ++ [line], lines := excerpt.lines + 1 }
  else { excerpt with tail := lastTen (excerpt.tail ++ [line]), lines := excerpt.lines + 1 }

/-- From the lines of the file as they are read, with their ends; `none` if it was removed. -/
def getLogsExcerpt : Option (List String) → String
  | none => "Log file was removed"
  | some file =>
    let excerpt := file.foldl Excerpt.read {}
    if excerpt.lines > 20 then
      String.join excerpt.head ++
        ("... " ++ toString (excerpt.lines - 20) ++ " more lines ...\n") ++
        String.join excerpt.tail
    else String.join (excerpt.head ++ excerpt.tail)

theorem lastTen_append (xs : List String) (line : String) :
    lastTen (lastTen xs ++ [line]) = lastTen (xs ++ [line]) := by
  simp only [lastTen, length_append, length_drop, length_singleton]
  rw [drop_append, drop_append, drop_drop, length_drop]
  congr 2 <;> omega

theorem foldl_read (file : List String) : file.foldl Excerpt.read {} =
    ⟨file.take 10, lastTen (file.drop 10), file.length⟩ := by
  induction file using reverseRecOn with
  | nil => rfl
  | append_singleton file line ih =>
    rw [foldl_append, ih, foldl_cons, foldl_nil, Excerpt.read, length_append, length_singleton]
    split_ifs with short
    · rw [length_take] at short
      have few : file.length ≤ 9 := by omega
      have fits : (file ++ [line]).length ≤ 10 := length_append ▸ Nat.succ_le_succ few
      rw [take_of_length_le fits, drop_of_length_le fits, take_of_length_le (by omega),
        drop_of_length_le (by omega)]
    · have long : 10 ≤ file.length := by
        rw [length_take] at short
        omega
      rw [take_append_of_le_length long, drop_append_of_le_length long, lastTen_append]

/-- Up to twenty lines are shown in full; of a longer file the first ten and the last ten, with the
number of those between them. -/
theorem getLogsExcerpt_spec (file : List String) :
    (file.length ≤ 20 → getLogsExcerpt (some file) = String.join file) ∧
    (20 < file.length → ∃ first omitted last, file = first ++ omitted ++ last ∧
      first.length = 10 ∧ last.length = 10 ∧ getLogsExcerpt (some file) =
        String.join first ++ ("... " ++ toString omitted.length ++ " more lines ...\n") ++
          String.join last) := by
  simp only [getLogsExcerpt, foldl_read]
  constructor
  · intro short
    have all : lastTen (file.drop 10) = file.drop 10 := by
      rw [lastTen, length_drop, Nat.sub_eq_zero_of_le (by omega), drop_zero]
    rw [if_neg (by omega), all, take_append_drop]
  · intro long
    have last : lastTen (file.drop 10) = file.drop (file.length - 10) := by
      rw [lastTen, drop_drop, length_drop]
      congr 1
      omega
    refine ⟨file.take 10, (file.drop 10).take (file.length - 20), lastTen (file.drop 10), ?_⟩
    have count : ((file.drop 10).take (file.length - 20)).length = file.length - 20 := by
      rw [length_take, length_drop]
      omega
    rw [if_pos long, count, length_take, last, length_drop]
    refine ⟨?_, by omega, by omega, rfl⟩
    have split := take_append_drop (file.length - 20) (file.drop 10)
    rw [drop_drop, show 10 + (file.length - 20) = file.length - 10 by omega] at split
    rw [append_assoc, split, take_append_drop]

end TruenasMiddleware.Jobs
