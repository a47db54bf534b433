import TruenasMiddleware.Iscsi.TargetToExtent

/-! No extent and no LUN of a target is mapped twice, in every run in which a check is made while
no other call that has passed the same check is still to store what it checked. Extents and LUNs
are guarded by the same kind of check, so one invariant over a key of the mapping is stated for
both. -/

namespace TruenasMiddleware.Iscsi

open Transition List

def Mapping.lun (mapping : Mapping) : Nat × Int := (mapping.target, mapping.lunid)

def Stage.lunClaim : Stage → Option Work
  | .lunChecked work => some work
  | .validated work => some work
  | _ => none

def Stage.extentClaim : Stage → Option Work
  | .validated work => some work
  | _ => none

def Work.Own (work : Work) (row : Row) : Prop := ∃ old ∈ work.old, row.id = old.id

section Keyed

variable {κ : Type} (key : Mapping → κ) (claim : Stage → Option Work)

structure Distinct (rows : List Row) (calls : List Stage) : Prop where
  unique : (rows.map fun row => key row.toMapping).Nodup
  free : ∀ (i : Nat) stage work, calls[i]? = some stage → claim stage = some work →
    ∀ row ∈ rows, ¬ work.Own row → key row.toMapping ≠ key work.mapping
  apart : ∀ (i j : Nat) first second work other, calls[i]? = some first →
    calls[j]? = some second → claim first = some work → claim second = some other →
    key work.mapping = key other.mapping → i = j

variable {key claim} {rows : List Row} {calls : List Stage} {i : Nat} {old new : Stage}
  (distinct : Distinct key claim rows calls)
include distinct

theorem Distinct.append (none : claim new = none) :
    Distinct key claim rows (calls ++ [new]) where
  unique := distinct.unique
  free := by
    intro j stage work found claimed
    rcases getElem?_append_new found with before | rfl
    · exact distinct.free j stage work before claimed
    · rw [none] at claimed
      cases claimed
  apart := by
    intro j k first second work other atJ atK claimedJ claimedK eq
    rcases getElem?_append_new atJ with wasJ | rfl
    · rcases getElem?_append_new atK with wasK | rfl
      · exact distinct.apart j k first second work other wasJ wasK claimedJ claimedK eq
      · rw [none] at claimedK
        cases claimedK
    · rw [none] at claimedJ
      cases claimedJ

theorem Distinct.move (known : calls[i]? = some old)
    (within : ∀ work, claim new = some work → claim old = some work) :
    Distinct key claim rows (calls.set i new) := by
  have before : ∀ (j : Nat) stage work, (calls.set i new)[j]? = some stage →
      claim stage = some work → ∃ stage, calls[j]? = some stage ∧ claim stage = some work := by
    intro j stage work found claimed
    rcases getElem?_move found with ⟨rfl, rfl⟩ | ⟨-, found⟩
    · exact ⟨old, known, within work claimed⟩
    · exact ⟨stage, found, claimed⟩
  refine ⟨distinct.unique, ?_, ?_⟩
  · intro j stage work found claimed
    obtain ⟨stage, found, claimed⟩ := before j stage work found claimed
    exact distinct.free j stage work found claimed
  · intro j k first second work other atJ atK claimedJ claimedK
    obtain ⟨first, atJ, claimedJ⟩ := before j first work atJ claimedJ
    obtain ⟨second, atK, claimedK⟩ := before k second other atK claimedK
    exact distinct.apart j k first second work other atJ atK claimedJ claimedK

variable {work : Work}

theorem Distinct.claims_new (claims : claim new = some work)
    (fresh : ∀ row ∈ rows, ¬ work.Own row → key row.toMapping ≠ key work.mapping)
    (alone : ∀ stage ∈ calls, ∀ other ∈ claim stage, key other.mapping ≠ key work.mapping) :
    Distinct key claim rows (calls.set i new) where
  unique := distinct.unique
  free := by
    intro j stage other found claimed
    rcases getElem?_move found with ⟨-, rfl⟩ | ⟨-, found⟩
    · cases claims.symm.trans claimed
      exact fresh
    · exact distinct.free j stage other found claimed
  apart := by
    intro j k first second one other atJ atK claimedJ claimedK eq
    rcases getElem?_move atJ with ⟨here, rfl⟩ | ⟨-, wasJ⟩ <;>
      rcases getElem?_move atK with ⟨there, rfl⟩ | ⟨-, wasK⟩
    · exact here.trans there.symm
    · cases claims.symm.trans claimedJ
      exact absurd eq.symm (alone second (mem_of_getElem? wasK) other claimedK)
    · cases claims.symm.trans claimedK
      exact absurd eq (alone first (mem_of_getElem? wasJ) one claimedJ)
    · exact distinct.apart j k first second one other wasJ wasK claimedJ claimedK eq

theorem Distinct.delete {fewer : List Row}
    (sub : fewer.Sublist rows) : Distinct key claim fewer calls where
  unique := distinct.unique.sublist (sub.map _)
  free := fun j stage work found claimed row mem =>
    distinct.free j stage work found claimed row (sub.subset mem)
  apart := distinct.apart

omit distinct in
theorem own_iff {row old : Row} (given : work.old = some old) :
    work.Own row ↔ row.id = old.id := by
  simp [Work.Own, given]

omit distinct in
theorem not_own {row : Row} (given : work.old = none) : ¬ work.Own row := by
  simp [Work.Own, given]

omit distinct in
theorem mem_written {row : Row} {lastId : Nat} (inside : row ∈ written lastId rows work) :
    row.toMapping = work.mapping ∨ row ∈ rows ∧ ¬ work.Own row := by
  rw [written] at inside
  cases given : work.old with rw [given] at inside
  | none =>
    rcases mem_append.mp inside with before | new
    · exact .inr ⟨before, not_own given⟩
    · exact .inl (by rw [mem_singleton.mp new])
  | some old =>
    obtain ⟨before, mem, rfl⟩ := mem_map.mp inside
    split_ifs with own
    · exact .inl rfl
    · exact .inr ⟨mem, mt (own_iff given).mp own⟩

omit distinct in
theorem nodup_written {lastId : Nat} (ids : (rows.map Row.id).Nodup)
    (unique : (rows.map fun row => key row.toMapping).Nodup)
    (fresh : ∀ row ∈ rows, ¬ work.Own row → key row.toMapping ≠ key work.mapping) :
    ((written lastId rows work).map fun row => key row.toMapping).Nodup := by
  rw [written]
  cases given : work.old with
  | none =>
    refine Dict.nodup_map_append.mpr ⟨unique, nodup_singleton _, fun row mem => ?_⟩
    exact forall_mem_singleton.mpr (fresh row mem (not_own given))
  | some old =>
    dsimp only
    rw [map_map]
    refine List.Nodup.map_on ?_ (List.Nodup.of_map _ ids)
    intro first memberFirst second memberSecond eq
    simp only [Function.comp_apply] at eq
    split_ifs at eq with ownFirst ownSecond ownSecond
    · exact inj_on_of_nodup_map ids memberFirst memberSecond (ownFirst.trans ownSecond.symm)
    · exact absurd eq.symm (fresh second memberSecond (mt (own_iff given).mp ownSecond))
    · exact absurd eq (fresh first memberFirst (mt (own_iff given).mp ownFirst))
    · exact inj_on_of_nodup_map unique memberFirst memberSecond eq

theorem Distinct.store {lastId : Nat} (ids : (rows.map Row.id).Nodup)
    (known : calls[i]? = some old) (claimed : claim old = some work) (none : claim new = none) :
    Distinct key claim (written lastId rows work) (calls.set i new) := by
  have kept : Distinct key claim rows (calls.set i new) := distinct.move known fun work claims => by
    rw [none] at claims
    cases claims
  refine ⟨nodup_written ids distinct.unique (distinct.free i old work known claimed), ?_,
    kept.apart⟩
  intro j stage other found claims row inside foreign
  rcases mem_written inside with eq | ⟨before, -⟩
  · rw [eq]
    rcases getElem?_move found with ⟨-, rfl⟩ | ⟨apart, was⟩
    · rw [none] at claims
      cases claims
    · intro equal
      exact apart (distinct.apart i j old stage work other known was claimed claims equal).symm
  · exact kept.free j stage other found claims row before foreign

omit distinct

/-- A check is decisive: no other call has passed it for the same key, and where the key is the one
that the call has read, the row still has it. -/
def Decisive [DecidableEq κ] (key : Mapping → κ) (claim : Stage → Option Work) (state : State)
    (work : Work) : Prop :=
  (∀ stage ∈ state.calls, ∀ other ∈ claim stage, key other.mapping ≠ key work.mapping) ∧
    ∀ old ∈ work.old, key old.toMapping = key work.mapping →
      ∃ row ∈ state.rows, row.id = old.id ∧ key row.toMapping = key work.mapping

instance [DecidableEq κ] (state : State) (work : Work) :
    Decidable (Decisive key claim state work) :=
  inferInstanceAs (Decidable (_ ∧ _))

theorem Decisive.fresh [DecidableEq κ] {state : State} (decisive : Decisive key claim state work)
    (unique : (state.rows.map fun row => key row.toMapping).Nodup)
    (passed : work.old.map (fun old => key old.toMapping) ≠ some (key work.mapping) →
      ∀ row ∈ state.rows, key row.toMapping ≠ key work.mapping) :
    ∀ row ∈ state.rows, ¬ work.Own row → key row.toMapping ≠ key work.mapping := by
  intro row mem foreign eq
  by_cases changed : work.old.map (fun old => key old.toMapping) = some (key work.mapping)
  · obtain ⟨old, given, unchanged⟩ := Option.map_eq_some_iff.mp changed
    obtain ⟨current, there, id, holds⟩ := decisive.2 old given unchanged
    obtain rfl := inj_on_of_nodup_map unique there mem (holds.trans eq.symm)
    exact foreign ⟨old, given, id⟩
  · exact passed changed row mem eq

end Keyed

def Exclusive (state : State) : Label → Prop
  | .checkLun i =>
    match state.calls[i]? with
    | some (.numbered work) => Decisive Mapping.lun Stage.lunClaim state work
    | _ => True
  | .checkExtent i =>
    match state.calls[i]? with
    | some (.lunChecked work) => Decisive Mapping.extent Stage.extentClaim state work
    | _ => True
  | _ => True

instance (state : State) (label : Label) : Decidable (Exclusive state label) := by
  unfold Exclusive
  split <;> try infer_instance
  all_goals split <;> infer_instance

structure Inv (state : State) : Prop where
  ids : (state.rows.map Row.id).Nodup
  luns : Distinct Mapping.lun Stage.lunClaim state.rows state.calls
  extents : Distinct Mapping.extent Stage.extentClaim state.rows state.calls

structure Start (state : State) : Prop where
  calls : state.calls = []
  accepted : Accepted state.rows
  luns : (state.rows.map fun row => row.toMapping.lun).Nodup
  extents : (state.rows.map fun row => row.extent).Nodup
  natural : ∀ row ∈ state.rows, 0 ≤ row.lunid

inductive Steps (state : State) : Label → State → Prop
  | arrive {label new} (lun : Stage.lunClaim new = none) (extent : Stage.extentClaim new = none) :
    Steps state label { state with calls := state.calls ++ [new] }
  | delete (id : Nat) :
    Steps state (.delete id)
      { state with rows := state.rows.filter fun row => decide (row.id ≠ id) }
  | move {label i old new} (known : state.calls[i]? = some old)
    (lun : ∀ work, Stage.lunClaim new = some work → Stage.lunClaim old = some work)
    (extent : ∀ work, Stage.extentClaim new = some work → Stage.extentClaim old = some work) :
    Steps state label (state.move i new)
  | checkLun {i work} (known : state.calls[i]? = some (.numbered work))
    (passed : lunError state.rows work = false) :
    Steps state (.checkLun i) (state.move i (.lunChecked work))
  | checkExtent {i work} (known : state.calls[i]? = some (.lunChecked work))
    (passed : extentError state.rows work = false) :
    Steps state (.checkExtent i) (state.move i (.validated work))
  | store {i work} (known : state.calls[i]? = some (.validated work))
    (accepted : Accepted (state.write work).rows) :
    Steps state (.store i) ((state.write work).move i .stored)

section Step

variable {state next : State} {label : Label} {i : Nat}

theorem step_cases (taken : step state label = some next) : Steps state label next := by
  cases label with simp only [Iscsi.step] at taken
  | create target extent lunid | update id changes =>
    cases taken
    exact .arrive rfl rfl
  | delete id =>
    cases taken
    exact .delete id
  | read i =>
    split at taken
    · rename_i known
      split at taken <;> cases taken
      all_goals exact .move known nofun nofun
    · cases taken
  | number i | fail i =>
    split at taken <;> cases taken
    rename_i known
    exact .move known nofun nofun
  | checkLun i =>
    split at taken <;> cases taken
    rename_i work known
    split_ifs with failed
    · exact .move known nofun nofun
    · exact .checkLun known (Bool.eq_false_iff.mpr failed)
  | checkExtent i =>
    split at taken <;> cases taken
    rename_i work known
    split_ifs with failed
    · exact .move known nofun nofun
    · exact .checkExtent known (Bool.eq_false_iff.mpr failed)
  | store i =>
    split at taken
    · rename_i work known
      split_ifs at taken with accepted <;> cases taken
      · exact .store known accepted
      · exact .move known nofun nofun
    · cases taken

theorem lun_ne_of_passed {work : Work} (passed : lunError state.rows work = false)
    (changed : work.old.map (fun old => old.toMapping.lun) ≠ some work.mapping.lun) :
    ∀ row ∈ state.rows, row.toMapping.lun ≠ work.mapping.lun := by
  intro row mem eq
  have query := (Bool.or_eq_false_iff.mp passed).2
  have differs : lunChanged work = true := decide_eq_true changed
  rw [differs, Bool.true_and, any_eq_false] at query
  exact query row mem (decide_eq_true eq)

theorem extent_ne_of_passed {work : Work} (passed : extentError state.rows work = false)
    (changed : work.old.map (fun old => old.toMapping.extent) ≠ some work.mapping.extent) :
    ∀ row ∈ state.rows, row.toMapping.extent ≠ work.mapping.extent := by
  intro row mem eq
  have differs : extentChanged work = true := decide_eq_true changed
  rw [extentError, differs, Bool.true_and, any_eq_false] at passed
  exact passed row mem (decide_eq_true eq)

theorem Inv.step (inv : Inv state) (exclusive : Exclusive state label)
    (taken : step state label = some next) : Inv next := by
  cases step_cases taken with
  | arrive lun extent => exact ⟨inv.ids, inv.luns.append lun, inv.extents.append extent⟩
  | delete id =>
    exact ⟨inv.ids.sublist (filter_sublist.map _), inv.luns.delete filter_sublist,
      inv.extents.delete filter_sublist⟩
  | move known lun extent =>
    exact ⟨inv.ids, inv.luns.move known lun, inv.extents.move known extent⟩
  | checkLun known passed =>
    simp only [Exclusive, known] at exclusive
    have fresh := exclusive.fresh inv.luns.unique (lun_ne_of_passed passed)
    exact ⟨inv.ids, inv.luns.claims_new rfl fresh exclusive.1, inv.extents.move known nofun⟩
  | checkExtent known passed =>
    simp only [Exclusive, known] at exclusive
    have fresh := exclusive.fresh inv.extents.unique (extent_ne_of_passed passed)
    exact ⟨inv.ids, inv.luns.move known fun _ claims => claims,
      inv.extents.claims_new rfl fresh exclusive.1⟩
  | store known accepted =>
    exact ⟨accepted.1, inv.luns.store inv.ids known rfl rfl,
      inv.extents.store inv.ids known rfl rfl⟩

theorem Start.inv (start : Start state) : Inv state := by
  have idle {κ : Type} {key : Mapping → κ} {claim : Stage → Option Work}
      (unique : (state.rows.map fun row => key row.toMapping).Nodup) :
      Distinct key claim state.rows state.calls := by
    rw [start.calls]
    refine ⟨unique, ?_, ?_⟩ <;> simp
  exact ⟨start.accepted.1, idle start.luns, idle start.extents⟩

/-- What every run keeps: the indexes of the table hold, and no LUN is negative, nor is one that has
passed its check. -/
structure Sound (state : State) : Prop where
  accepted : Accepted state.rows
  rows : ∀ row ∈ state.rows, 0 ≤ row.lunid
  claims : ∀ (i : Nat) stage work, state.calls[i]? = some stage → stage.lunClaim = some work →
    0 ≤ work.mapping.lunid

theorem Sound.move {old new : Stage} (sound : Sound state) (known : state.calls[i]? = some old)
    (claims : ∀ work, new.lunClaim = some work →
      old.lunClaim = some work ∨ 0 ≤ work.mapping.lunid) : Sound (state.move i new) := by
  refine ⟨sound.accepted, sound.rows, fun j stage work found claimed => ?_⟩
  rcases getElem?_move found with ⟨rfl, rfl⟩ | ⟨-, found⟩
  · exact (claims work claimed).elim (sound.claims j old work known) id
  · exact sound.claims j stage work found claimed

theorem Sound.step (sound : Sound state) (taken : step state label = some next) : Sound next := by
  cases step_cases taken with
  | arrive lun extent =>
    refine ⟨sound.accepted, sound.rows, fun j stage work found claims => ?_⟩
    rcases getElem?_append_new found with found | rfl
    · exact sound.claims j stage work found claims
    · rw [lun] at claims
      cases claims
  | delete id =>
    exact ⟨⟨sound.accepted.1.sublist (filter_sublist.map _),
        sound.accepted.2.sublist (filter_sublist.map _)⟩,
      fun row inside => sound.rows row (mem_of_mem_filter inside), sound.claims⟩
  | move known lun extent => exact sound.move known fun work claims => .inl (lun work claims)
  | checkLun known passed =>
    refine sound.move known fun work claims => .inr ?_
    cases claims
    have range := of_decide_eq_false (Bool.or_eq_false_iff.mp passed).1
    omega
  | checkExtent known passed => exact sound.move known fun work claims => .inl claims
  | store known accepted =>
    have moved : Sound (state.move _ .stored) := sound.move known nofun
    refine ⟨accepted, fun row inside => ?_, moved.claims⟩
    rcases mem_written inside with eq | ⟨before, -⟩
    · rw [eq]
      exact sound.claims _ _ _ known rfl
    · exact sound.rows row before

theorem Start.sound (start : Start state) : Sound state := by
  refine ⟨start.accepted, start.natural, fun j stage work found => ?_⟩
  rw [start.calls] at found
  cases found

end Step

section Alone

variable {state : State} {rows : List Row} {i target extent : Nat}

theorem lt_nextId {row : Row} (lastId : Nat) (mem : row ∈ rows) : row.id < nextId lastId rows := by
  rw [nextId]
  induction rows with
  | nil => cases mem
  | cons first rest ih =>
    rw [map_cons, foldr_cons]
    rcases mem_cons.mp mem with rfl | mem
    · omega
    · have := ih mem
      omega

theorem Accepted.append (accepted : Accepted rows) {lun : Int} {lastId : Nat}
    (unused : ∀ row ∈ rows, row.extent ≠ extent) :
    Accepted (rows ++ [⟨⟨target, extent, lun⟩, nextId lastId rows⟩]) := by
  constructor
  · refine Dict.nodup_map_append.mpr ⟨accepted.1, nodup_singleton _, fun row mem => ?_⟩
    exact forall_mem_singleton.mpr (lt_nextId lastId mem).ne
  · refine Dict.nodup_map_append.mpr ⟨accepted.2, nodup_singleton _, fun row mem => ?_⟩
    exact forall_mem_singleton.mpr fun eq => unused row mem (congrArg Prod.snd eq)

/-- A call that runs alone from its first query to its write. -/
def runAlone (state : State) (i : Nat) : Option State :=
  exec step Always state [.number i, .checkLun i, .checkExtent i, .store i]

theorem mem_lunids {row : Row} (mem : row ∈ rows) : row.lunid ∈ lunids rows row.target :=
  mem_map_of_mem (mem_filter.mpr ⟨mem, decide_eq_true rfl⟩)

theorem Sound.nextLun_isLeast (sound : Sound state) (target : Nat) :
    IsLeast {n | 0 ≤ n ∧ n ∉ lunids state.rows target} (nextLun (lunids state.rows target)) := by
  refine Iscsi.nextLun_isLeast fun n used => ?_
  obtain ⟨row, mem, rfl⟩ := mem_map.mp used
  exact sound.rows row (mem_of_mem_filter mem)

theorem runAlone_create (sound : Sound state)
    (known : state.calls[i]? = some (.numbering none 0 target extent none))
    (unused : ∀ row ∈ state.rows, row.extent ≠ extent)
    (range : nextLun (lunids state.rows target) < lunMapSize) :
    runAlone state i = some { state.move i .stored with
        rows := state.rows ++ [⟨⟨target, extent, nextLun (lunids state.rows target)⟩,
          nextId state.lastId state.rows⟩]
        lastId := nextId state.lastId state.rows } := by
  obtain ⟨⟨low, free⟩, -⟩ := sound.nextLun_isLeast target
  have lunFree : lunError state.rows
      ⟨none, 0, target, extent, nextLun (lunids state.rows target)⟩ = false := by
    refine Bool.or_eq_false_iff.mpr ⟨decide_eq_false (by dsimp only; omega), ?_⟩
    refine Bool.and_eq_false_iff.mpr (.inr (any_eq_false.mpr fun row inside eq => ?_))
    obtain ⟨sameTarget, sameLun⟩ := Prod.mk.inj (of_decide_eq_true eq)
    have used := mem_lunids inside
    rw [sameTarget, sameLun] at used
    exact free used
  have extentFree : extentError state.rows
      ⟨none, 0, target, extent, nextLun (lunids state.rows target)⟩ = false := by
    refine Bool.and_eq_false_iff.mpr (.inr (any_eq_false.mpr fun row inside eq => ?_))
    exact unused row inside (of_decide_eq_true eq)
  have accepted : Accepted (state.rows ++ [⟨⟨target, extent, nextLun (lunids state.rows target)⟩,
      nextId state.lastId state.rows⟩]) := sound.accepted.append unused
  have length := (List.getElem?_eq_some_iff.mp known).1
  rw [runAlone]
  simp only [exec, step, State.move, State.write, written, known, Option.getD_none,
    Option.bind_some, List.getElem?_set_self length, set_set, lunFree, extentFree,
    Bool.false_eq_true, if_false, if_pos accepted]
  rfl

/-- No extent is mapped twice and no two associations share target and LUN, in every run in which
each check is decisive; and in any run a create call that has no LUN takes the least one unused on
its target if nothing runs between its steps. -/
theorem mappings_unambiguous {start : State} (begin : Start start) :
    (∀ state, Reach step Exclusive start state → (state.rows.map fun row => row.extent).Nodup ∧
        (state.rows.map fun row => (row.target, row.lunid)).Nodup) ∧
    ∀ state, Reach step Always start state → ∀ i target extent,
      state.calls[i]? = some (.numbering none 0 target extent none) →
      ∃ lun, IsLeast {n | 0 ≤ n ∧ n ∉ lunids state.rows target} lun ∧ step state (.number i) =
          some (state.move i (.numbered ⟨none, 0, target, extent, lun⟩)) ∧
        (lun < lunMapSize → (∀ row ∈ state.rows, row.extent ≠ extent) → runAlone state i = some
            { state.move i .stored with
              rows := state.rows ++ [⟨⟨target, extent, lun⟩, nextId state.lastId state.rows⟩]
              lastId := nextId state.lastId state.rows }) := by
  constructor
  · intro state reached
    have inv := reached.invariant begin.inv fun _ _ _ inv exclusive stepped =>
      inv.step exclusive stepped
    exact ⟨inv.extents.unique, inv.luns.unique⟩
  · intro state reached i target extent known
    have sound := reached.invariant begin.sound fun _ _ _ sound _ stepped => sound.step stepped
    refine ⟨_, sound.nextLun_isLeast target, ?_, fun range unused =>
      runAlone_create sound known unused range⟩
    simp only [step, known, Option.getD_none]

theorem mappings_unambiguous_remapped : (∃ state, Reach step Exclusive {} state ∧
      state.rows = [⟨⟨1, 11, 1⟩, 2⟩, ⟨⟨1, 10, 0⟩, 3⟩] ∧
      (state.rows.map fun row => row.extent).Nodup) ∧
    ∃ state, Reach step Always {} state ∧ ∃ lun, IsLeast {n | 0 ≤ n ∧ n ∉ lunids state.rows 1} lun ∧
        step state (.number 0) = some (state.move 0 (.numbered ⟨none, 0, 1, 10, lun⟩)) := by
  have begin : Start {} := ⟨rfl, by decide, by decide, by decide, by decide⟩
  constructor
  · exact exists_reach_of_run
      (P := fun state => state.rows = [⟨⟨1, 11, 1⟩, 2⟩, ⟨⟨1, 10, 0⟩, 3⟩])
      [.create 1 10 none, .number 0, .checkLun 0, .checkExtent 0, .store 0, .create 1 11 none,
        .number 1, .checkLun 1, .checkExtent 1, .store 1, .delete 1, .create 1 10 none, .number 2,
        .checkLun 2, .checkExtent 2, .store 2]
      (by decide +kernel) fun state reached rows =>
        ⟨rows, ((mappings_unambiguous begin).1 state reached).1⟩
  · refine exists_reach_of_run
      (P := fun state => state.calls[0]? = some (.numbering none 0 1 10 none))
      [.create 1 10 none] (by decide +kernel) fun state reached known => ?_
    obtain ⟨lun, least, numbered, -⟩ := (mappings_unambiguous begin).2 state reached 0 1 10 known
    exact ⟨lun, least, numbered⟩

/-- Two creates are validated before either of them stores: an extent is mapped to two targets, and
two extents get LUN 0 of one target. -/
theorem mappings_ambiguous : (∃ state, Reach step Always {} state ∧
      state.rows = [⟨⟨1, 10, 0⟩, 1⟩, ⟨⟨2, 10, 0⟩, 2⟩]) ∧
    ∃ state, Reach step Always {} state ∧ state.rows = [⟨⟨1, 10, 0⟩, 1⟩, ⟨⟨1, 11, 0⟩, 2⟩] := by
  constructor
  · apply exists_reach_of_exec [.create 1 10 none, .create 2 10 none, .number 0, .number 1,
      .checkLun 0, .checkExtent 0, .checkLun 1, .checkExtent 1, .store 0, .store 1]
    decide +kernel
  · apply exists_reach_of_exec [.create 1 10 none, .create 1 11 none, .number 0, .number 1,
      .checkLun 0, .checkExtent 0, .checkLun 1, .checkExtent 1, .store 0, .store 1]
    decide +kernel

end Alone

end TruenasMiddleware.Iscsi
