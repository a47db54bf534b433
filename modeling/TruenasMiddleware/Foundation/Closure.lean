import Mathlib.Order.WellFounded
import Mathlib.Data.Fintype.EquivFin

/-! Two ways of computing a closure in a finite directed graph. `collect` follows
the edges downwards by plain recursion, without a set of visited nodes, and may
be stopped by an exception or by the recursion limit. `saturate` adds nodes
upwards in sweeps until a sweep changes nothing. -/

namespace Closure

open Relation List

variable {α ε : Type*} [DecidableEq α]

section Downward

/-- One target of the loop: skipped, or united with what the recursion returns. -/
def visit (follow : α → Except ε Bool) (recurse : α → Except ε (Finset α)) (found : Finset α)
    (b : α) : Except ε (Finset α) :=
  match follow b with
  | .error e => .error e
  | .ok false => .ok found
  | .ok true => (recurse b).map (found ∪ ·)

/-- Unite what `own` gives at `a` and, recursively, at the targets that `follow`
allows. -/
def collect (own : α → Finset α) (edges : α → List α) (follow : α → Except ε Bool) (limit : ε) :
    Nat → α → Except ε (Finset α)
  | 0, _ => .error limit
  | n + 1, a => (edges a).foldlM (visit follow (collect own edges follow limit n)) (own a)

/-- An edge that the recursion takes. -/
def Follows (edges : α → List α) (follow : α → Except ε Bool) (a b : α) : Prop :=
  b ∈ edges a ∧ follow b = .ok true

variable {own : α → Finset α} {edges : α → List α} {follow : α → Except ε Bool} {limit : ε}

variable {recurse : α → Except ε (Finset α)} {targets : List α} {result : Finset α}
  {a source target : α} {r r' : α → α → Prop}

theorem foldlM_visit
    {start : Finset α} (run : targets.foldlM (visit follow recurse) start = .ok result) :
    (∀ b ∈ targets, follow b = .ok true → ∃ s, recurse b = .ok s ∧ s ⊆ result) ∧
      ∀ x, x ∈ result ↔ x ∈ start ∨
        ∃ b ∈ targets, follow b = .ok true ∧ ∃ s, recurse b = .ok s ∧ x ∈ s := by
  induction targets generalizing start with
  | nil =>
    obtain rfl : start = result := Except.ok.inj run
    simp
  | cons b rest ih =>
    rw [foldlM_cons] at run
    cases allowed : follow b with simp only [visit, allowed] at run
    | error e => cases run
    | ok taken =>
      cases taken with
      | false =>
        obtain ⟨visited, mem⟩ := ih run
        refine ⟨?_, fun x => by simp [mem x, allowed]⟩
        intro c inside
        rcases mem_cons.mp inside with rfl | later
        · simp [allowed]
        · exact visited c later
      | true =>
        cases found : recurse b with simp only [found] at run
        | error e => cases run
        | ok s =>
          obtain ⟨visited, mem⟩ := ih run
          refine ⟨?_, fun x => ?_⟩
          · intro c inside here
            rcases mem_cons.mp inside with rfl | later
            · refine ⟨s, found, fun x inside => (mem x).mpr (.inl ?_)⟩
              exact Finset.mem_union_right _ inside
            · exact visited c later here
          · rw [mem x, Finset.mem_union]
            simp [allowed, found, or_assoc]

theorem mem_collect {n : Nat}
    (run : collect own edges follow limit n a = .ok result) (x : α) :
    x ∈ result ↔ ∃ c, ReflTransGen (Follows edges follow) a c ∧ x ∈ own c := by
  induction n generalizing a result with
  | zero => cases run
  | succ n ih =>
    obtain ⟨visited, mem⟩ := foldlM_visit run
    rw [mem x]
    constructor
    · rintro (here | ⟨b, edge, allowed, s, found, inside⟩)
      · exact ⟨a, .refl, here⟩
      · obtain ⟨c, path, here⟩ := (ih found).mp inside
        exact ⟨c, .head ⟨edge, allowed⟩ path, here⟩
    · rintro ⟨c, path, here⟩
      rcases path.cases_head with rfl | ⟨b, ⟨edge, allowed⟩, path⟩
      · exact .inl here
      · obtain ⟨s, found, -⟩ := visited b edge allowed
        exact .inr ⟨b, edge, allowed, s, found, (ih found).mpr ⟨c, path, here⟩⟩

theorem foldlM_visit_ok (start : Finset α)
    (allows : ∀ b ∈ targets, ∃ taken, follow b = .ok taken)
    (returns : ∀ b ∈ targets, follow b = .ok true → ∃ s, recurse b = .ok s) :
    ∃ result, targets.foldlM (visit follow recurse) start = .ok result := by
  induction targets generalizing start with
  | nil => exact ⟨start, rfl⟩
  | cons b rest ih =>
    have later := fun found => ih found (fun c mem => allows c (mem_cons_of_mem b mem))
      (fun c mem => returns c (mem_cons_of_mem b mem))
    obtain ⟨taken, allowed⟩ := allows b mem_cons_self
    rw [foldlM_cons]
    cases taken with
    | false =>
      simp only [visit, allowed]
      exact later start
    | true =>
      obtain ⟨s, found⟩ := returns b mem_cons_self allowed
      simp only [visit, allowed, found]
      exact later (start ∪ s)

omit [DecidableEq α] in
theorem exists_common_bound {P : Nat → α → Prop} (targets : List α)
    (each : ∀ b ∈ targets, ∃ n, ∀ m, n ≤ m → P m b) :
    ∃ n, ∀ m, n ≤ m → ∀ b ∈ targets, P m b := by
  induction targets with
  | nil => exact ⟨0, fun _ _ => forall_mem_nil _⟩
  | cons b rest ih =>
    obtain ⟨first, here⟩ := each b mem_cons_self
    obtain ⟨second, later⟩ := ih fun c mem => each c (mem_cons_of_mem b mem)
    exact ⟨max first second, fun m above => forall_mem_cons.mpr
      ⟨here m (le_of_max_le_left above), later m (le_of_max_le_right above)⟩⟩

theorem collect_returns (finite : Acc (fun b a => Follows edges follow a b) a)
    (allows : ∀ c, ReflTransGen (Follows edges follow) a c → ∀ b ∈ edges c,
      ∃ taken, follow b = .ok taken) :
    ∃ n, ∀ m, n ≤ m → ∃ result, collect own edges follow limit m a = .ok result := by
  induction finite with
  | intro a _ ih =>
    obtain ⟨n, enough⟩ := exists_common_bound (P := fun m b => follow b = .ok true →
        ∃ result, collect own edges follow limit m b = .ok result) (edges a) fun b edge => by
      by_cases allowed : follow b = .ok true
      · have step : Follows edges follow a b := ⟨edge, allowed⟩
        obtain ⟨n, returns⟩ := ih b step fun c path => allows c (.head step path)
        exact ⟨n, fun m above _ => returns m above⟩
      · exact ⟨0, fun _ _ here => absurd here allowed⟩
    refine ⟨n + 1, fun m above => ?_⟩
    obtain ⟨k, rfl⟩ : ∃ k, m = k + 1 := ⟨m - 1, by omega⟩
    exact foldlM_visit_ok _ (allows a .refl) (enough k (by omega))

theorem acc_of_acyclic {support : Finset α}
    (source : ∀ a b, r a b → a ∈ support) (acyclic : ∀ a, ¬ TransGen r a a) (a : α) :
    Acc (fun b a => r a b) a := by
  let later : support → support → Prop := fun b a => TransGen r a.1 b.1
  have transitive : IsTrans support later := ⟨fun _ _ _ first second => second.trans first⟩
  have irreflexive : Std.Irrefl later := ⟨fun a cycle => acyclic a.1 cycle⟩
  have inside : ∀ a : support, Acc (fun b a => r a b) a.1 := by
    intro a
    induction a using (Finite.wellFounded_of_trans_of_irrefl later).induction with
    | _ a ih =>
      refine .intro _ fun b edge => ?_
      by_cases known : b ∈ support
      · exact ih ⟨b, known⟩ (.single edge)
      · exact .intro _ fun c next => absurd (source b c next) known
  by_cases known : a ∈ support
  · exact inside ⟨a, known⟩
  · exact .intro _ fun b edge => absurd (source a b edge) known

omit [DecidableEq α]

theorem not_transGen_of_acc (finite : Acc (fun b a => r a b) a) : ¬ TransGen r a a := by
  have below : Acc (TransGen fun b a => r a b) a := finite.transGen
  induction below with
  | intro a _ ih =>
    intro cycle
    have back : TransGen (fun b a => r a b) a a := transGen_swap.mpr cycle
    exact ih a back (finite.inv_of_transGen back) cycle

theorem transGen_of_added {b : α}
    (added : ∀ x y, r' x y → r x y ∨ x = source ∧ y = target) (path : TransGen r' a b) :
    TransGen r a b ∨ ReflTransGen r a source ∧ ReflTransGen r target b := by
  induction path with
  | single edge =>
    rcases added _ _ edge with old | ⟨rfl, rfl⟩
    · exact .inl (.single old)
    · exact .inr ⟨.refl, .refl⟩
  | tail _ edge ih =>
    rcases added _ _ edge with old | ⟨rfl, rfl⟩
    · exact ih.imp (·.tail old) fun ⟨first, second⟩ => ⟨first, second.tail old⟩
    · refine .inr ⟨?_, .refl⟩
      rcases ih with before | ⟨first, _⟩
      · exact before.to_reflTransGen
      · exact first

theorem acyclic_add_iff (acyclic : ∀ a, ¬ TransGen r a a)
    (edges : ∀ x y, r' x y ↔ r x y ∨ x = source ∧ y = target) :
    (∀ a, ¬ TransGen r' a a) ↔ ¬ ReflTransGen r target source := by
  constructor
  · intro still path
    have kept : ReflTransGen r' target source :=
      ReflTransGen.mono (fun x y old => (edges x y).mpr (.inl old)) _ _ path
    exact still source (.head' ((edges _ _).mpr (.inr ⟨rfl, rfl⟩)) kept)
  · intro apart a cycle
    rcases transGen_of_added (fun x y => (edges x y).mp) cycle with old | ⟨first, second⟩
    · exact acyclic a old
    · exact apart (second.trans first)

end Downward

section Upward

def sweepNode (edges : α → List α) (state : Finset α × Bool) (a : α) : Finset α × Bool :=
  if a ∉ state.1 ∧ ∃ b ∈ edges a, b ∈ state.1 then (insert a state.1, true) else state

def saturate (edges : α → List α) (nodes : List α) : Nat → Finset α → Option (Finset α)
  | 0, _ => none
  | n + 1, found =>
    match nodes.foldl (sweepNode edges) (found, false) with
    | (found, true) => saturate edges nodes n found
    | (found, false) => some found

def Leads (edges : α → List α) (nodes : List α) (a b : α) : Prop := a ∈ nodes ∧ b ∈ edges a

variable {edges : α → List α} {nodes : List α}

structure Swept (edges : α → List α) (nodes rest : List α) (found result : Finset α)
    (before after : Bool) : Prop where
  grows : found ⊆ result
  leads : ∀ x ∈ result, ∃ c ∈ found, ReflTransGen (Leads edges nodes) x c
  inside : ∀ x ∈ result, x ∈ found ∨ x ∈ rest
  unchanged : after = false → before = false ∧ result = found ∧
    ∀ a ∈ rest, ∀ b ∈ edges a, b ∈ found → a ∈ found
  changed : after = true → before = true ∨ found ≠ result

theorem swept (edges : α → List α) (rest : List α) (part : ∀ a ∈ rest, a ∈ nodes)
    (found : Finset α) (before : Bool) :
    Swept edges nodes rest found (rest.foldl (sweepNode edges) (found, before)).1 before
      (rest.foldl (sweepNode edges) (found, before)).2 := by
  induction rest generalizing found before with
  | nil =>
    exact ⟨fun _ => id, fun x inside => ⟨x, inside, .refl⟩, fun _ => .inl, fun after =>
      ⟨after, rfl, by simp⟩, .inl⟩
  | cons a rest ih =>
    have later := ih fun b inside => part b (mem_cons_of_mem a inside)
    rw [foldl_cons]
    by_cases adds : a ∉ found ∧ ∃ b ∈ edges a, b ∈ found
    · have step : sweepNode edges (found, before) a = (insert a found, true) := if_pos adds
      rw [step]
      obtain ⟨grows, leads, inside, unchanged, changed⟩ := later (insert a found) true
      obtain ⟨new, b, edge, target⟩ := adds
      refine ⟨fun x old => grows (Finset.mem_insert_of_mem old), ?_, ?_, ?_, ?_⟩
      · intro x mem
        obtain ⟨c, reached, path⟩ := leads x mem
        rcases Finset.mem_insert.mp reached with rfl | old
        · exact ⟨b, target, path.tail ⟨part c mem_cons_self, edge⟩⟩
        · exact ⟨c, old, path⟩
      · intro x mem
        rcases inside x mem with old | old
        · rcases Finset.mem_insert.mp old with rfl | old
          · exact .inr mem_cons_self
          · exact .inl old
        · exact .inr (mem_cons_of_mem a old)
      · intro after
        cases (unchanged after).1
      · intro _
        refine .inr fun eq => new ?_
        rw [eq]
        exact grows (Finset.mem_insert_self a found)
    · have step : sweepNode edges (found, before) a = (found, before) := if_neg adds
      rw [step]
      obtain ⟨grows, leads, inside, unchanged, changed⟩ := later found before
      refine ⟨grows, leads, fun x mem => ?_, fun after => ?_, changed⟩
      · exact (inside x mem).imp_right (mem_cons_of_mem a)
      · obtain ⟨first, eq, closed⟩ := unchanged after
        refine ⟨first, eq, fun c mem b edge target => ?_⟩
        rcases mem_cons.mp mem with rfl | mem
        · by_contra new
          exact adds ⟨new, b, edge, target⟩
        · exact closed c mem b edge target

theorem mem_saturate {n : Nat} {found result : Finset α}
    (run : saturate edges nodes n found = some result) (x : α) :
    x ∈ result ↔ ∃ c ∈ found, ReflTransGen (Leads edges nodes) x c := by
  induction n generalizing found with
  | zero => cases run
  | succ n ih =>
    have sweep := swept edges nodes (fun _ => id) found false
    rw [saturate] at run
    generalize nodes.foldl (sweepNode edges) (found, false) = state at run sweep
    obtain ⟨next, after⟩ := state
    cases after with
    | true =>
      rw [ih run]
      constructor
      · rintro ⟨c, mem, path⟩
        obtain ⟨d, old, rest⟩ := sweep.leads c mem
        exact ⟨d, old, path.trans rest⟩
      · rintro ⟨c, mem, path⟩
        exact ⟨c, sweep.grows mem, path⟩
    | false =>
      obtain ⟨-, eq, closed⟩ := sweep.unchanged rfl
      obtain rfl : found = result := eq.symm.trans (Option.some.inj run)
      constructor
      · exact fun mem => ⟨x, mem, .refl⟩
      · rintro ⟨c, mem, path⟩
        -- the set is closed against the direction of the edges
        clear ih run
        induction path using ReflTransGen.head_induction_on with
        | refl => exact mem
        | head edge _ target => exact closed _ edge.1 _ edge.2 target

theorem saturate_returns {n : Nat} {found : Finset α}
    (enough : (nodes.toFinset \ found).card < n) :
    ∃ result, saturate edges nodes n found = some result := by
  induction n generalizing found with
  | zero => cases enough
  | succ n ih =>
    have sweep := swept edges nodes (fun _ => id) found false
    rw [saturate]
    generalize nodes.foldl (sweepNode edges) (found, false) = state at sweep ⊢
    obtain ⟨next, after⟩ := state
    cases after with
    | false => exact ⟨next, rfl⟩
    | true =>
      apply ih
      have different := (sweep.changed rfl).resolve_left Bool.false_ne_true
      obtain ⟨x, new, old⟩ := Finset.exists_of_ssubset (sweep.grows.ssubset_of_ne different)
      have node : x ∈ nodes := (sweep.inside x new).resolve_left old
      have fewer : (nodes.toFinset \ next).card < (nodes.toFinset \ found).card := by
        apply Finset.card_lt_card
        refine ⟨Finset.sdiff_subset_sdiff le_rfl sweep.grows, fun subset => ?_⟩
        have left : x ∈ nodes.toFinset \ found := by simp [node, old]
        exact (Finset.mem_sdiff.mp (subset left)).2 new
      omega

end Upward

end Closure
