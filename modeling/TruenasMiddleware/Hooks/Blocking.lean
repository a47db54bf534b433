import Mathlib.Data.Set.Basic
import Mathlib.Algebra.Group.Int.Defs

/-! `Middleware.block_hooks` and the counters it shares with `call_hook`. The context manager counts
every name up before its `yield` and down after it, with no `finally` around the `yield`. A `Body`
is the code under a context as far as the counters can tell. -/

namespace TruenasMiddleware.Hooks

open Function

structure Hook where
  blockable : Bool

/-- `self.__blocked_hooks`, a `defaultdict(int)`. -/
abbrev BlockedHooks := String → Int

inductive Raised
  /-- `Hook 'name' does not exist` -/
  | doesNotExist (name : String)
  /-- `Hook 'name' is not blockable` -/
  | notBlockable (name : String)
  | body

inductive Body
  | done
  | raise
  | seq (first second : Body)
  /-- `try: body` with `except: handler`. -/
  | attempt (body handler : Body)
  /-- `call_hook(name)`, where `methods` is what the registered methods do together. -/
  | callHook (name : String) (methods : Body)
  /-- `with block_hooks(*names): body`. -/
  | blockHooks (names : List String) (body : Body)

variable (hooks : String → List Hook)

def checkBlockable : List String → Except Raised Unit
  | [] => .ok ()
  | name :: names =>
    match hooks name with
    | [] => .error (.doesNotExist name)
    | hook :: _ => if hook.blockable then checkBlockable names else .error (.notBlockable name)

def countAll (amount : Int) (names : List String) (blocked : BlockedHooks) : BlockedHooks :=
  names.foldl (fun counters name => update counters name (counters name + amount)) blocked

def run : Body → BlockedHooks → Except Raised Unit × BlockedHooks
  | .done, blocked => (.ok (), blocked)
  | .raise, blocked => (.error .body, blocked)
  | .seq first second, blocked =>
    match run first blocked with
    | (.ok (), after) => run second after
    | (.error raised, after) => (.error raised, after)
  | .attempt body handler, blocked =>
    match run body blocked with
    | (.ok (), after) => (.ok (), after)
    | (.error _, after) => run handler after
  | .callHook name methods, blocked =>
    if 0 < blocked name then (.ok (), blocked) else run methods blocked
  | .blockHooks names body, blocked =>
    match checkBlockable hooks names with
    | .error raised => (.error raised, blocked)
    | .ok () =>
      match run body (countAll 1 names blocked) with
      | (.ok (), after) => (.ok (), countAll (-1) names after)
      -- the exception leaves the generator at its `yield`
      | (.error raised, after) => (.error raised, after)

def leaked : Body → BlockedHooks → List String
  | .done, _ => []
  | .raise, _ => []
  | .seq first second, blocked =>
    match run hooks first blocked with
    | (.ok (), after) => leaked first blocked ++ leaked second after
    | (.error _, _) => leaked first blocked
  | .attempt body handler, blocked =>
    match run hooks body blocked with
    | (.ok (), _) => leaked body blocked
    | (.error _, after) => leaked body blocked ++ leaked handler after
  | .callHook name methods, blocked => if 0 < blocked name then [] else leaked methods blocked
  | .blockHooks names body, blocked =>
    match checkBlockable hooks names with
    | .error _ => []
    | .ok () =>
      match run hooks body (countAll 1 names blocked) with
      | (.ok (), _) => leaked body (countAll 1 names blocked)
      | (.error _, _) => leaked body (countAll 1 names blocked) ++ names

def blockedNames (blocked : BlockedHooks) : Set String := {name | 0 < blocked name}

theorem mem_blockedNames {blocked : BlockedHooks} {name : String} :
    name ∈ blockedNames blocked ↔ 0 < blocked name :=
  Iff.rfl

theorem countAll_apply (amount : Int) (names : List String) (blocked : BlockedHooks)
    (name : String) :
    countAll amount names blocked name = blocked name + names.count name * amount := by
  induction names generalizing blocked with
  | nil => simp [countAll]
  | cons first rest ih =>
    have next := ih (update blocked first (blocked first + amount))
    rw [countAll] at next
    rw [countAll, List.foldl_cons, next, List.count_cons]
    by_cases eq : first = name
    · subst eq
      simp only [update_self, BEq.rfl, if_true]
      grind
    · simp [update_of_ne (Ne.symm eq), eq]

theorem run_apply (body : Body) (blocked : BlockedHooks) (name : String) :
    (run hooks body blocked).2 name = blocked name + (leaked hooks body blocked).count name := by
  induction body generalizing blocked with
  | done | raise => simp [run, leaked]
  | seq first second ihFirst ihSecond =>
    have one := ihFirst blocked
    simp only [run, leaked]
    split <;> rename_i after ended <;> simp only [ended] at one
    · rw [ihSecond, one, List.count_append]
      omega
    · exact one
  | attempt body handler ihBody ihHandler =>
    have one := ihBody blocked
    simp only [run, leaked]
    split <;> rename_i after ended <;> simp only [ended] at one
    · exact one
    · rw [ihHandler, one, List.count_append]
      omega
  | callHook hook methods ih =>
    simp only [run, leaked]
    split
    · simp
    · exact ih blocked
  | blockHooks names body ih =>
    have inner := ih (countAll 1 names blocked)
    simp only [run, leaked]
    split
    · simp
    · split <;> rename_i after ended <;> simp only [ended] at inner ⊢
      · rw [countAll_apply, inner, countAll_apply]
        omega
      · rw [inner, countAll_apply, List.count_append]
        omega

/-- Starting from counters that are not negative, as those of a fresh
middleware are, the hooks blocked after the outermost context are those blocked
before it exactly when every context that an exception left had named only
hooks that were blocked before the outermost one was entered. -/
theorem block_hooks_balanced_iff (names : List String) (body : Body) (blocked : BlockedHooks)
    (nonneg : ∀ name, 0 ≤ blocked name) :
    blockedNames (run hooks (.blockHooks names body) blocked).2 = blockedNames blocked ↔
      ∀ name ∈ leaked hooks (.blockHooks names body) blocked, 0 < blocked name := by
  simp only [Set.ext_iff, mem_blockedNames, run_apply]
  constructor
  · intro same name left
    have counted := List.count_pos_iff.mpr left
    have low := nonneg name
    exact (same name).mp (by omega)
  · intro known name
    constructor
    · intro after
      by_cases left : name ∈ leaked hooks (.blockHooks names body) blocked
      · exact known name left
      · rw [List.count_eq_zero_of_not_mem left] at after
        simpa using after
    · intro before
      omega

def poolHooks (name : String) : List Hook :=
  if name = "pool.post_import" ∨ name = "pool.pre_export" then [⟨true⟩] else []

/-- An outer context that returns, although the context under it is left by an
exception which is caught: the hook both name stays blocked. -/
theorem block_hooks_leak : blockedNames (run poolHooks (.blockHooks ["pool.post_import"]
      (.attempt (.blockHooks ["pool.post_import"] .raise) .done)) fun _ => 0).2 ≠
        blockedNames fun _ => 0 := by
  have after : (run poolHooks (.blockHooks ["pool.post_import"]
      (.attempt (.blockHooks ["pool.post_import"] .raise) .done)) fun _ => 0).2
        "pool.post_import" = 1 := by decide
  intro same
  have blocked : "pool.post_import" ∈ blockedNames fun _ => 0 := by
    rw [← same, mem_blockedNames, after]
    decide
  exact absurd (mem_blockedNames.mp blocked) (by decide)

theorem block_hooks_balanced_iff_nested :
    blockedNames (run poolHooks (.blockHooks ["pool.pre_export"]
      (.attempt (.blockHooks ["pool.post_import"] .raise) .done))
        (Function.update (fun _ => 0) "pool.post_import" 1)).2 =
      blockedNames (Function.update (fun _ => 0) "pool.post_import" 1) :=
  (block_hooks_balanced_iff poolHooks _ _ _ (by
    intro name
    by_cases same : name = "pool.post_import"
    · subst same
      decide
    · simp [update_of_ne same])).mpr (by decide)

end TruenasMiddleware.Hooks
