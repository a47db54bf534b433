import TruenasMiddleware.Accounts.Ids

/-! No two accounts with one id. The table is unique and unfinished creates hold different ids
in every run in which an explicit id is only used while nothing else holds it; the code checks
an explicit id against the name service alone and never reserves it. -/

namespace TruenasMiddleware.Accounts

open Auth Transition List Dict ReservedXid

/-- When a step cannot lead to a shared id.
* An explicit id that the name service and, for groups, the privileges do not know is checked only
  while no row and no unfinished create has it, and while no automatic choice is going on.
* An automatic choice starts only while every unfinished create with an explicit id has its row.
* It ends before a reservation of an unfinished create expires, with no builtin account among
  the ids it chooses from. -/
def Exclusive (system : System) (state : State) : Label → Prop
  | .validate i =>
    ∀ create ∈ state.creates[i]?, ∀ xid ∈ create.explicit,
      xid ∉ state.nss ∧ (system.kind = .group → xid ∉ state.usedLocalGids) →
      xid ∉ xids state.accounts ∧ state.locked = false ∧
        ∀ other ∈ state.creates, other.stage.held ≠ some xid
  | .startNext _ =>
    ∀ create ∈ state.creates, create.explicit.isSome → create.stage.exposed = none
  | .pickNext i =>
    (∀ create ∈ state.creates, create.explicit = none →
      ∀ xid ∈ create.stage.reserving, live state.now state.inFlight xid) ∧
    ∀ create ∈ state.creates[i]?, ∀ allocated ∈ create.stage.allocated,
      ∀ row ∈ state.accounts, row.builtin →
        row.xid < MIN_AUTO_XID ∨ maxXid (totalXids state allocated) + 1 < row.xid
  | _ => True

instance (system : System) (state : State) (label : Label) :
    Decidable (Exclusive system state label) := by
  cases label <;> unfold Exclusive <;> infer_instance

structure Start (state : State) : Prop where
  creates : state.creates = []
  inFlight : state.inFlight = []
  unique : (xids state.accounts).Nodup

/-- What holds while an automatic choice that has read `allocated` is going on. -/
structure Choosing (accounts : List Row) (creates : List Create) (allocated : List Nat) : Prop where
  auto : ∀ xid ∈ allocated, MIN_AUTO_XID ≤ xid
  /-- A row that came after the query belongs to a create that still has its reservation. -/
  rows : ∀ row ∈ accounts, row.builtin = false → MIN_AUTO_XID ≤ row.xid →
    row.xid ∈ allocated ∨ ∃ create ∈ creates, create.explicit = none ∧
      create.stage = .inserted row.xid
  explicit : ∀ create ∈ creates, create.explicit.isSome → ∀ xid,
    create.stage.held = some xid → MIN_AUTO_XID ≤ xid → xid ∈ allocated
  released : ∀ create ∈ creates, ∀ xid, create.stage = .released xid →
    MIN_AUTO_XID ≤ xid → xid ∈ allocated

structure Inv (accounts : List Row) (creates : List Create) (inFlight : ReservedXid) : Prop where
  unique : (xids accounts).Nodup
  distinct : ∀ (i j : Nat) (first second : Create) (xid : Nat), creates[i]? = some first →
    creates[j]? = some second → first.stage.held = some xid →
    second.stage.held = some xid → i = j
  absent : ∀ create ∈ creates, ∀ xid, create.stage.exposed = some xid → xid ∉ xids accounts
  stored : ∀ (i : Nat) (create : Create) (xid : Nat), creates[i]? = some create →
    create.stage.stored = some xid → ⟨xid, false, some i⟩ ∈ accounts
  reserved : ∀ create ∈ creates, create.explicit = none → ∀ xid,
    create.stage.reserving = some xid → xid ∈ Dict.keys inFlight
  auto : ∀ xid ∈ Dict.keys inFlight, MIN_AUTO_XID ≤ xid
  choosing : ∀ create ∈ creates, ∀ allocated, create.stage = .choosing allocated →
    Choosing accounts creates allocated

def State.Inv (state : State) : Prop := Accounts.Inv state.accounts state.creates state.inFlight

variable {system : System} {state next start : State} {i j other : Nat}
variable {accounts after : List Row} {creates : List Create} {inFlight remaining : ReservedXid}
variable {old new : Create}

variable {explicit : Option Nat} {xid : Nat} {allocated : List Nat} {create : Create}
  {stage : Stage}

theorem mem_move (here : create ∈ creates.set i new) :
    create = new ∨ ∃ j, j ≠ i ∧ creates[j]? = some create := by
  obtain ⟨j, found⟩ := mem_iff_getElem?.mp here
  rcases getElem?_move found with ⟨-, moved⟩ | ⟨other, found⟩
  · exact .inl moved
  · exact .inr ⟨j, other, found⟩

theorem mem_move_of_ne (other : j ≠ i) (found : creates[j]? = some create) :
    create ∈ creates.set i new := by
  apply mem_of_getElem? (i := j)
  rw [List.getElem?_set_ne (Ne.symm other), found]

theorem Stage.held_of_reserving (reserves : stage.reserving = some xid) :
    stage.held = some xid := by
  cases stage <;> first | exact reserves | cases reserves

theorem Stage.held_of_exposed (exposes : stage.exposed = some xid) : stage.held = some xid := by
  cases stage <;> first | exact exposes | cases exposes

theorem Stage.held_of_stored (stores : stage.stored = some xid) : stage.held = some xid := by
  cases stage <;> first | exact stores | cases stores

theorem Stage.stored_of_held (holds : stage.held = some xid) (covered : stage.exposed = none) :
    stage.stored = some xid := by
  cases stage <;> simp_all [held, exposed, Stage.stored]

structure Within (new old : Create) : Prop where
  explicit : new.explicit = old.explicit
  held : ∀ xid, new.stage.held = some xid → old.stage.held = some xid
  exposed : ∀ xid, new.stage.exposed = some xid → old.stage.exposed = some xid
  stored : ∀ xid, new.stage.stored = some xid → old.stage.stored = some xid
  reserving : ∀ xid, new.stage.reserving = some xid → old.stage.reserving = some xid

theorem Within.refl (create : Create) : Within create create :=
  ⟨rfl, fun _ => id, fun _ => id, fun _ => id, fun _ => id⟩

theorem Within.before (within : Within new old) (known : creates[i]? = some old)
    (found : (creates.set i new)[j]? = some create) :
    ∃ before, creates[j]? = some before ∧ Within create before := by
  rcases getElem?_move found with ⟨rfl, rfl⟩ | ⟨-, found⟩
  · exact ⟨old, known, within⟩
  · exact ⟨create, found, .refl create⟩

theorem Within.before_mem (within : Within new old) (known : creates[i]? = some old)
    (here : create ∈ creates.set i new) :
    ∃ before ∈ creates, Within create before := by
  obtain ⟨j, found⟩ := mem_iff_getElem?.mp here
  obtain ⟨before, known, narrower⟩ := within.before known found
  exact ⟨before, mem_of_getElem? known, narrower⟩

/-- What a choice relies on after a create has moved and rows came or went: the rows it did not
read are those of automatic creates, and an explicit or released id is one it has read. -/
theorem Choosing.move (choosing : Choosing accounts creates allocated)
    (known : creates[i]? = some old)
    (rows : ∀ row ∈ after, row.builtin = false → MIN_AUTO_XID ≤ row.xid →
      row ∈ accounts ∧ old.stage ≠ .inserted row.xid ∨ row.xid ∈ allocated ∨
        new.explicit = none ∧ new.stage = .inserted row.xid)
    (explicit : new.explicit.isSome → ∀ xid, new.stage.held = some xid → MIN_AUTO_XID ≤ xid →
      xid ∈ allocated)
    (released : ∀ xid, new.stage = .released xid → MIN_AUTO_XID ≤ xid → xid ∈ allocated) :
    Choosing after (creates.set i new) allocated where
  auto := choosing.auto
  rows := by
    intro row inside plain bound
    rcases rows row inside plain bound with ⟨old, apart⟩ | read | ⟨automatic, stored⟩
    · refine (choosing.rows row old plain bound).imp_right ?_
      rintro ⟨create, here, automatic, stored⟩
      obtain ⟨j, found⟩ := mem_iff_getElem?.mp here
      have other : j ≠ i := by
        rintro rfl
        rw [known] at found
        exact apart (Option.some.inj found ▸ stored)
      exact ⟨create, mem_move_of_ne other found, automatic, stored⟩
    · exact .inl read
    · have inside := (List.getElem?_eq_some_iff.mp known).1
      exact .inr ⟨new, mem_set inside new, automatic, stored⟩
  explicit := by
    intro create here given xid held bound
    rcases mem_or_eq_of_mem_set here with here | rfl
    · exact choosing.explicit create here given xid held bound
    · exact explicit given xid held bound
  released := by
    intro create here xid done bound
    rcases mem_or_eq_of_mem_set here with here | rfl
    · exact choosing.released create here xid done bound
    · exact released xid done bound

/-- A create that moves on without a new claim, and may drop the reservation of its own id. One
whose row a choice may have missed does so only while no choice is going on. -/
theorem Inv.shrink (inv : Inv accounts creates inFlight)
    (known : creates[i]? = some old) (within : Within new old)
    (chooses : ∀ allocated, new.stage = .choosing allocated →
      Choosing accounts (creates.set i new) allocated)
    (quiet : (∃ xid, old.stage = .inserted xid) → ∀ create ∈ creates, create.stage.allocated = none)
    (fewer : ∀ xid ∈ Dict.keys remaining, xid ∈ Dict.keys inFlight)
    (kept : ∀ xid ∈ Dict.keys inFlight, xid ∈ Dict.keys remaining ∨
      old.stage.held = some xid ∧ new.stage.reserving = none) :
    Inv accounts (creates.set i new) remaining where
  unique := inv.unique
  distinct := by
    intro j k first second xid atJ atK heldJ heldK
    obtain ⟨before, atJ, narrower⟩ := within.before known atJ
    obtain ⟨after, atK, tighter⟩ := within.before known atK
    exact inv.distinct j k before after xid atJ atK (narrower.held xid heldJ)
      (tighter.held xid heldK)
  absent := by
    intro create here xid exposed
    obtain ⟨before, here, narrower⟩ := within.before_mem known here
    exact inv.absent before here xid (narrower.exposed xid exposed)
  stored := by
    intro j create xid atJ stored
    obtain ⟨before, atJ, narrower⟩ := within.before known atJ
    exact inv.stored j before xid atJ (narrower.stored xid stored)
  reserved := by
    intro create here automatic xid reserving
    obtain ⟨j, found⟩ := mem_iff_getElem?.mp here
    obtain ⟨before, atJ, narrower⟩ := within.before known found
    have inside := inv.reserved before (mem_of_getElem? atJ) (narrower.explicit ▸ automatic)
      xid (narrower.reserving xid reserving)
    rcases kept xid inside with stays | ⟨held, none⟩
    · exact stays
    · -- the dropped reservation was the mover's own, and no other create holds that id
      have eq := inv.distinct j i before old xid atJ known
        (Stage.held_of_reserving (narrower.reserving xid reserving)) held
      rcases getElem?_move found with ⟨-, rfl⟩ | ⟨other, -⟩
      · rw [none] at reserving
        cases reserving
      · exact absurd eq other
  auto := fun xid inside => inv.auto xid (fewer xid inside)
  choosing := by
    intro create here allocated choosing
    rcases mem_or_eq_of_mem_set here with here | moved
    · have before := inv.choosing create here allocated choosing
      have busy : ∀ xid, old.stage ≠ .inserted xid := by
        intro xid inserted
        have idle := quiet ⟨xid, inserted⟩ create here
        rw [choosing] at idle
        cases idle
      refine before.move known (fun row inside _ _ => .inl ⟨inside, busy row.xid⟩) ?_ ?_
      · intro given xid held
        exact before.explicit old (mem_of_getElem? known) (within.explicit ▸ given) xid
          (within.held xid held)
      · intro xid released
        have stored := within.stored xid (by rw [released]; rfl)
        cases stage : old.stage with
        | released other =>
          rw [stage] at stored
          exact before.released old (mem_of_getElem? known) xid
            (stage.trans (congrArg _ (Option.some.inj stored)))
        | inserted other => exact absurd stage (busy other)
        | _ => simp [stage, Stage.stored] at stored
    · exact chooses allocated (moved ▸ choosing)

theorem Inv.claim {reserving : ReservedXid} (inv : Inv accounts creates inFlight)
    (known : creates[i]? = some old) (unstored : old.stage.held = none)
    (fresh : xid ∉ xids accounts) (free : ∀ create ∈ creates, create.stage.held ≠ some xid)
    (quiet : explicit.isSome → ∀ create ∈ creates, create.stage.allocated = none)
    (reserves : explicit = none → xid ∈ Dict.keys reserving)
    (auto : ∀ xid ∈ Dict.keys reserving, MIN_AUTO_XID ≤ xid)
    (kept : ∀ create ∈ creates, create.explicit = none →
      ∀ other, create.stage.reserving = some other → other ∈ Dict.keys reserving) :
    Inv accounts (creates.set i ⟨explicit, .chosen xid⟩) reserving where
  unique := inv.unique
  distinct := by
    intro j k first second other atJ atK heldJ heldK
    rcases getElem?_move atJ with ⟨here, rfl⟩ | ⟨-, wasJ⟩ <;>
      rcases getElem?_move atK with ⟨there, rfl⟩ | ⟨-, wasK⟩
    · exact here.trans there.symm
    · exact absurd (heldK.trans heldJ.symm) (free second (mem_of_getElem? wasK))
    · exact absurd (heldJ.trans heldK.symm) (free first (mem_of_getElem? wasJ))
    · exact inv.distinct j k first second other wasJ wasK heldJ heldK
  absent := by
    intro create here other exposed
    rcases mem_or_eq_of_mem_set here with here | rfl
    · exact inv.absent create here other exposed
    · cases exposed
      exact fresh
  stored := by
    intro j create other atJ stored
    rcases getElem?_move atJ with ⟨-, rfl⟩ | ⟨-, atJ⟩
    · cases stored
    · exact inv.stored j create other atJ stored
  reserved := by
    intro create here automatic other reserving
    rcases mem_or_eq_of_mem_set here with here | rfl
    · exact kept create here automatic other reserving
    · cases reserving
      exact reserves automatic
  auto := auto
  choosing := by
    intro create here allocated choosing
    obtain here | rfl := mem_or_eq_of_mem_set here
    swap
    · cases choosing
    have before := inv.choosing create here allocated choosing
    refine before.move known ?_ ?_ nofun
    · intro row inside _ _
      refine .inl ⟨inside, fun stored => ?_⟩
      rw [stored] at unstored
      cases unstored
    · intro given
      have idle := quiet given create here
      rw [choosing] at idle
      cases idle

theorem Choosing.request (choosing : Choosing accounts creates allocated) :
    Choosing accounts (creates ++ [⟨explicit, .validating⟩]) allocated where
  auto := choosing.auto
  rows := by
    intro row mem plain bound
    refine (choosing.rows row mem plain bound).imp_right ?_
    rintro ⟨owner, here, rest⟩
    exact ⟨owner, mem_append_left _ here, rest⟩
  explicit := forall_mem_append.mpr ⟨choosing.explicit, forall_mem_singleton.mpr nofun⟩
  released := forall_mem_append.mpr ⟨choosing.released, forall_mem_singleton.mpr nofun⟩

section

variable (inv : Inv accounts creates inFlight)
include inv

theorem Inv.request :
    Inv accounts (creates ++ [⟨explicit, .validating⟩]) inFlight where
  unique := inv.unique
  distinct := by
    intro j k first second xid atJ atK heldJ heldK
    rcases getElem?_append_new atJ with wasJ | rfl
    · rcases getElem?_append_new atK with wasK | rfl
      · exact inv.distinct j k first second xid wasJ wasK heldJ heldK
      · cases heldK
    · cases heldJ
  absent := forall_mem_append.mpr ⟨inv.absent, forall_mem_singleton.mpr nofun⟩
  stored := by
    intro j create xid atJ stored
    rcases getElem?_append_new atJ with wasJ | rfl
    · exact inv.stored j create xid wasJ stored
    · cases stored
  reserved := forall_mem_append.mpr ⟨inv.reserved, forall_mem_singleton.mpr nofun⟩
  auto := inv.auto
  choosing := by
    refine forall_mem_append.mpr ⟨?_, forall_mem_singleton.mpr nofun⟩
    exact fun create here allocated choosing =>
      (inv.choosing create here allocated choosing).request

theorem Inv.distinct_move (known : creates[i]? = some old)
    (eq : new.stage.held = old.stage.held) (j k : Nat) (first second : Create) (xid : Nat)
    (atJ : (creates.set i new)[j]? = some first) (atK : (creates.set i new)[k]? = some second)
    (heldJ : first.stage.held = some xid) (heldK : second.stage.held = some xid) : j = k := by
  rcases getElem?_move atJ with ⟨here, rfl⟩ | ⟨-, wasJ⟩ <;>
    rcases getElem?_move atK with ⟨there, rfl⟩ | ⟨-, wasK⟩
  · exact here.trans there.symm
  · exact here.trans (inv.distinct i k old second xid known wasK (eq ▸ heldJ) heldK)
  · exact (inv.distinct j i first old xid wasJ known heldJ (eq ▸ heldK)).trans there.symm
  · exact inv.distinct j k first second xid wasJ wasK heldJ heldK

theorem Inv.reserved_move (known : creates[i]? = some old)
    (explicit : new.explicit = old.explicit) (eq : new.stage.reserving = old.stage.reserving) :
    ∀ create ∈ creates.set i new, create.explicit = none → ∀ xid,
      create.stage.reserving = some xid → xid ∈ Dict.keys inFlight := by
  intro create here automatic xid reserving
  rcases mem_or_eq_of_mem_set here with here | rfl
  · exact inv.reserved create here automatic xid reserving
  · exact inv.reserved old (mem_of_getElem? known) (explicit ▸ automatic) xid (eq ▸ reserving)

theorem Inv.insert (known : creates[i]? = some ⟨explicit, .chosen xid⟩) :
    Inv (accounts ++ [⟨xid, false, some i⟩]) (creates.set i ⟨explicit, .inserted xid⟩)
      inFlight where
  unique := by
    have fresh := inv.absent _ (mem_of_getElem? known) xid rfl
    refine nodup_map_append.mpr ⟨inv.unique, nodup_singleton xid, fun row mem => ?_⟩
    exact forall_mem_singleton.mpr fun eq => fresh (mem_map.mpr ⟨row, mem, eq⟩)
  distinct := inv.distinct_move known rfl
  absent := by
    intro create here other exposed
    obtain rfl | ⟨j, apart, found⟩ := mem_move here
    · cases exposed
    · rw [xids, map_append]
      intro inside
      rcases mem_append.mp inside with before | new
      · exact inv.absent create (mem_of_getElem? found) other exposed before
      · obtain rfl : other = xid := mem_singleton.mp new
        exact apart (inv.distinct j i create _ other found known
          (Stage.held_of_exposed exposed) rfl)
  stored := by
    intro j create other atJ stored
    rcases getElem?_move atJ with ⟨rfl, rfl⟩ | ⟨-, wasJ⟩
    · cases stored
      exact mem_append_right _ (mem_singleton_self _)
    · exact mem_append_left _ (inv.stored j create other wasJ stored)
  reserved := inv.reserved_move known rfl rfl
  auto := inv.auto
  choosing := by
    intro create here allocated choosing
    obtain here | rfl := mem_or_eq_of_mem_set here
    swap
    · cases choosing
    have before := inv.choosing create here allocated choosing
    have given := before.explicit _ (mem_of_getElem? known)
    refine before.move known ?_ given nofun
    intro row inside _ bound
    rcases mem_append.mp inside with inside | new
    · exact .inl ⟨inside, nofun⟩
    · obtain rfl := mem_singleton.mp new
      cases explicit with
      | none => exact .inr (.inr ⟨rfl, rfl⟩)
      | some _ => exact .inr (.inl (given rfl xid rfl bound))

theorem Inv.not_mem_rollBack (known : creates[i]? = some ⟨explicit, .inserted xid⟩)
    {row : Row} (mem : row ∈ accounts) (kept : row.createdBy ≠ some i) : row.xid ≠ xid := by
  intro eq
  have own := inv.stored i _ xid known rfl
  have equal : row = ⟨xid, false, some i⟩ := inj_on_of_nodup_map inv.unique mem own eq
  exact kept (congrArg Row.createdBy equal)

theorem Inv.rollBack (known : creates[i]? = some ⟨explicit, .inserted xid⟩) :
    Inv (accounts.filter fun row => decide (row.createdBy ≠ some i))
      (creates.set i ⟨explicit, .rolledBack xid⟩) inFlight where
  unique := inv.unique.sublist (filter_sublist.map _)
  distinct := inv.distinct_move known rfl
  absent := by
    intro create here other exposed inside
    obtain ⟨row, kept, rfl⟩ := mem_map.mp inside
    obtain ⟨inside, kept⟩ := mem_filter.mp kept
    rcases mem_or_eq_of_mem_set here with here | rfl
    · exact inv.absent create here row.xid exposed (mem_map_of_mem inside)
    · exact inv.not_mem_rollBack known inside (of_decide_eq_true kept)
        (Option.some.inj exposed).symm
  stored := by
    intro j create other atJ stored
    rcases getElem?_move atJ with ⟨-, rfl⟩ | ⟨apart, wasJ⟩
    · cases stored
    · refine mem_filter.mpr ⟨inv.stored j create other wasJ stored, ?_⟩
      simpa using apart
  reserved := inv.reserved_move known rfl rfl
  auto := inv.auto
  choosing := by
    intro create here allocated choosing
    obtain here | rfl := mem_or_eq_of_mem_set here
    swap
    · cases choosing
    have before := inv.choosing create here allocated choosing
    have given := before.explicit _ (mem_of_getElem? known)
    refine before.move known ?_ given nofun
    intro row kept _ _
    obtain ⟨inside, kept⟩ := mem_filter.mp kept
    refine .inl ⟨inside, fun eq => ?_⟩
    exact inv.not_mem_rollBack known inside (of_decide_eq_true kept) (Stage.inserted.inj eq).symm

end

theorem not_locked (open_ : state.locked = false) :
    ∀ create ∈ state.creates, create.stage.allocated = none := by
  intro create here
  have idle := any_eq_false.mp open_ create here
  simpa using idle

theorem total_auto (auto : ∀ xid ∈ allocated, MIN_AUTO_XID ≤ xid)
    (keys : ∀ xid ∈ Dict.keys state.inFlight, MIN_AUTO_XID ≤ xid) :
    ∀ xid ∈ totalXids state allocated, MIN_AUTO_XID ≤ xid := by
  intro xid mem
  rcases mem_append.mp mem with read | used
  · exact auto xid read
  · rw [inUse, inUseLoop_snd] at used
    exact keys xid (mem_filter.mp used).1

theorem pickNext_eq (state : State) (i : Nat) (allocated : List Nat) : pickNext state i allocated =
      some { state.move i ⟨none, .chosen (nextXid (totalXids state allocated))⟩ with
        inFlight := Dict.set (nextXid (totalXids state allocated)) (state.now + LOCKED_XID_TTL)
          (inUse state.now state.inFlight).1 } := by
  have fresh := nextXid_not_mem (totalXids state allocated)
  rw [pickNext, addEntry_inUse fun used => fresh (mem_append_right _ used)]
  rfl

theorem keys_removeEntry (mem : other ∈ Dict.keys inFlight) :
    other ∈ Dict.keys (ReservedXid.removeEntry xid inFlight) ∨ other = xid := by
  rw [← lookup_isSome, ReservedXid.removeEntry, lookup_pop]
  by_cases eq : other = xid
  · exact .inr eq
  · rw [if_neg eq]
    exact .inl (lookup_isSome.mpr mem)

theorem Start.inv (start : Start state) : state.Inv := by
  obtain ⟨creates, inFlight, unique⟩ := start
  rw [State.Inv, creates, inFlight]
  exact ⟨unique, nofun, nofun, nofun, nofun, nofun, nofun⟩

variable (inv : state.Inv)
include inv

theorem State.Inv.pick_fresh (known : state.creates[i]? = some ⟨none, .choosing allocated⟩)
    (exclusive : Exclusive system state (.pickNext i)) :
    nextXid (totalXids state allocated) ∉ xids state.accounts ∧ ∀ create ∈ state.creates,
        create.stage.held ≠ some (nextXid (totalXids state allocated)) := by
  have choosing := inv.choosing _ (mem_of_getElem? known) allocated rfl
  have fresh := nextXid_not_mem (totalXids state allocated)
  have range := nextXid_mem_range (total_auto choosing.auto inv.auto)
  obtain ⟨current, apart⟩ := exclusive
  generalize nextXid (totalXids state allocated) = xid at fresh range ⊢
  have unread : xid ∉ allocated := fun read => fresh (mem_append_left _ read)
  have unreserved : ∀ create ∈ state.creates, create.explicit = none →
      create.stage.reserving ≠ some xid := by
    intro create here automatic reserving
    have alive := current create here automatic xid reserving
    exact fresh (mem_append_right _ (mem_inUse.mpr alive))
  constructor
  · intro used
    obtain ⟨row, inside, rfl⟩ := mem_map.mp used
    cases kind : row.builtin with
    | true =>
      have outside := apart _ known allocated rfl row inside kind
      omega
    | false =>
      rcases choosing.rows row inside kind range.1 with read | ⟨create, here, automatic, stored⟩
      · exact unread read
      · exact unreserved create here automatic (by rw [stored]; rfl)
  · intro create here held
    cases given : create.explicit with
    | some explicit =>
      exact unread (choosing.explicit create here (by rw [given]; rfl) xid held range.1)
    | none =>
      cases stage : create.stage with rw [stage] at held
      | released other =>
        cases held
        exact unread (choosing.released create here xid stage range.1)
      | _ =>
        first
          | cases held; done
          | exact unreserved create here given (by rw [stage]; exact held)

theorem State.Inv.pickNext (known : state.creates[i]? = some ⟨none, .choosing allocated⟩)
    (exclusive : Exclusive system state (.pickNext i))
    (picked : pickNext state i allocated = some next) :
    next.Inv := by
  have choosing := inv.choosing _ (mem_of_getElem? known) allocated rfl
  obtain ⟨fresh, free⟩ := inv.pick_fresh known exclusive
  have range := nextXid_mem_range (total_auto choosing.auto inv.auto)
  rw [pickNext_eq] at picked
  cases picked
  refine inv.claim known rfl fresh free nofun ?_ ?_ ?_
  · intro _
    exact (mem_keys_set _).mpr (.inl rfl)
  · intro xid inside
    rcases (mem_keys_set _).mp inside with eq | kept
    · rw [eq]
      exact range.1
    · rw [← lookup_isSome, lookup_inUse] at kept
      split at kept
      · exact inv.auto xid (lookup_isSome.mp kept)
      · cases kept
  · intro create here automatic xid reserving
    have alive := exclusive.1 create here automatic xid reserving
    have inside := inv.reserved create here automatic xid reserving
    refine (mem_keys_set _).mpr (.inr (lookup_isSome.mp ?_))
    rw [lookup_inUse, if_pos alive]
    exact lookup_isSome.mpr inside

theorem State.Inv.startNext (known : state.creates[i]? = some ⟨none, .numbering⟩)
    (unlocked : state.locked = false) (exclusive : Exclusive system state (.startNext i)) :
    (state.move i ⟨none, .choosing (allocatedXids system.kind state)⟩).Inv := by
  have read : ∀ row ∈ state.accounts, row.builtin = false → MIN_AUTO_XID ≤ row.xid →
      row.xid ∈ allocatedXids system.kind state := by
    intro row inside plain bound
    refine mem_append_left _ (mem_map_of_mem (mem_filter.mpr ⟨inside, ?_⟩))
    simp [plain, bound]
  have stored : ∀ create ∈ state.creates, ∀ xid, create.stage.stored = some xid →
      MIN_AUTO_XID ≤ xid → xid ∈ allocatedXids system.kind state := by
    intro create here xid stored bound
    obtain ⟨j, found⟩ := mem_iff_getElem?.mp here
    exact read _ (inv.stored j create xid found stored) rfl bound
  have none : Within ⟨none, .choosing (allocatedXids system.kind state)⟩ ⟨none, .numbering⟩ :=
    ⟨rfl, nofun, nofun, nofun, nofun⟩
  refine inv.shrink known none ?_ (fun _ => not_locked unlocked) (fun _ => id) (fun _ => .inl)
  intro allocated eq
  obtain rfl := Stage.choosing.inj eq
  constructor
  · intro xid inside
    rcases mem_append.mp inside with row | gid
    · obtain ⟨row, listed, rfl⟩ := mem_map.mp row
      have kept := (mem_filter.mp listed).2
      simp only [Bool.and_eq_true, decide_eq_true_eq] at kept
      exact kept.2
    · cases kind : system.kind with
      | user => simp [kind] at gid
      | group =>
        simp only [kind] at gid
        exact of_decide_eq_true (mem_filter.mp gid).2
  · exact fun row inside plain bound => .inl (read row inside plain bound)
  · intro create here given xid held bound
    obtain ⟨before, here, narrower⟩ := none.before_mem known here
    have covered := exclusive before here (narrower.explicit ▸ given)
    exact stored before here xid (Stage.stored_of_held (narrower.held xid held) covered) bound
  · intro create here xid released bound
    rcases mem_or_eq_of_mem_set here with here | rfl
    · exact stored create here xid (by rw [released]; rfl) bound
    · cases released

theorem State.Inv.release (known : state.creates[i]? = some old)
    (unlocked : state.locked = false) (within : Within new old) (idle : new.stage.allocated = none)
    (held : old.stage.held = some xid) (done : new.stage.reserving = none) :
    (removeEntry (state.move i new) xid).Inv := by
  refine inv.shrink known within ?_ (fun _ => not_locked unlocked) ?_ ?_
  · intro allocated choosing
    rw [choosing] at idle
    cases idle
  · exact fun other mem => map_subset _ (filter_subset_self _) mem
  · intro other mem
    refine (keys_removeEntry mem).imp_right fun eq => ⟨?_, done⟩
    rw [held, eq]

theorem State.Inv.retire (known : state.creates[i]? = some old)
    (eq : new.explicit = old.explicit) (free : new.stage.held = none)
    (idle : new.stage.allocated = none) (plain : ∀ xid, old.stage ≠ .inserted xid) :
    (state.move i new).Inv := by
  have none : ∀ xid, new.stage.held ≠ some xid := by simp [free]
  have within : Within new old :=
    ⟨eq, fun xid held => absurd held (none xid),
      fun xid exposed => absurd (Stage.held_of_exposed exposed) (none xid),
      fun xid stored => absurd (Stage.held_of_stored stored) (none xid),
      fun xid reserving => absurd (Stage.held_of_reserving reserving) (none xid)⟩
  refine inv.shrink known within ?_ ?_ (fun _ => id) (fun _ => .inl)
  · intro allocated choosing
    rw [choosing] at idle
    cases idle
  · rintro ⟨xid, inserted⟩
    exact absurd inserted (plain xid)

omit inv in
theorem not_mem_taken : xid ∉ taken system.kind state ↔
    xid ∉ state.nss ∧ (system.kind = .group → xid ∉ state.usedLocalGids) := by
  cases kind : system.kind <;> simp [taken]

theorem State.Inv.validate (known : state.creates[i]? = some ⟨explicit, .validating⟩)
    (exclusive : Exclusive system state (.validate i)) :
    (validate system state i explicit).Inv := by
  cases explicit with
  | none => exact inv.retire known rfl rfl rfl nofun
  | some xid =>
    rw [Accounts.validate]
    split
    · exact inv.retire known rfl rfl rfl nofun
    · rename_i unknown
      obtain ⟨fresh, unlocked, free⟩ := exclusive _ known xid rfl (not_mem_taken.mp unknown)
      exact inv.claim known rfl fresh free (fun _ => not_locked unlocked) nofun inv.auto
        inv.reserved

theorem State.Inv.step {label : Label} (exclusive : Exclusive system state label)
    (taken : step system state label = some next) : next.Inv := by
  cases label with simp only [Accounts.step] at taken
  | request explicit =>
    cases taken
    exact Accounts.Inv.request inv
  | validate i =>
    split at taken <;> cases taken
    rename_i known
    exact inv.validate known exclusive
  | reject i =>
    split at taken <;> cases taken
    all_goals
      rename_i known
      exact inv.retire known rfl rfl rfl nofun
  | startNext i =>
    split at taken <;> cases taken
    rename_i known unlocked
    exact inv.startNext known unlocked exclusive
  | pickNext i =>
    split at taken
    · rename_i known
      exact inv.pickNext known exclusive taken
    · cases taken
  | abandon i =>
    split at taken <;> cases taken
    rename_i known
    exact inv.retire known rfl rfl rfl nofun
  | abort i =>
    split at taken <;> cases taken
    rename_i known unlocked
    exact inv.release known unlocked ⟨rfl, nofun, nofun, nofun, nofun⟩ rfl rfl rfl
  | insert i =>
    split at taken <;> cases taken
    rename_i known
    exact Accounts.Inv.insert inv known
  | rollBack i =>
    split at taken <;> cases taken
    rename_i known _
    exact Accounts.Inv.rollBack inv known
  | release i =>
    split at taken <;> cases taken
    · rename_i known unlocked
      exact inv.release known unlocked ⟨rfl, fun _ => id, nofun, fun _ => id, nofun⟩ rfl rfl rfl
    · rename_i known unlocked
      exact inv.release known unlocked ⟨rfl, nofun, nofun, nofun, nofun⟩ rfl rfl rfl
  | finish i reload =>
    split at taken
    · rename_i known
      have retired : (state.move i ⟨_, .returned⟩).Inv := inv.retire known rfl rfl rfl nofun
      split at taken
      · cases taken
        exact retired
      · split at taken <;> cases taken
        exact retired
    · cases taken
  | reload =>
    cases taken
    exact inv
  | privileges gids =>
    cases taken
    exact inv
  | tick now =>
    split at taken <;> cases taken
    exact inv

omit inv

theorem inv_of_reach (begins : Start start)
    (reached : Reach (step system) (Exclusive system) start state) : state.Inv :=
  reached.invariant begins.inv fun _ _ _ inv exclusive taken => inv.step exclusive taken

def handedOut (state : State) (i : Nat) : Option Nat :=
  (state.creates[i]?).bind fun create => create.stage.held

/-- No two accounts share an id, and an id is handed out only while no create holds it. -/
theorem account_ids_unique {start : State} (begins : Start start)
    (reached : Reach (step system) (Exclusive system) start state) :
    (xids state.accounts).Nodup ∧
      ∀ i next xid, Exclusive system state (.pickNext i) →
        step system state (.pickNext i) = some next →
        handedOut next i = some xid → ∀ create ∈ state.creates, create.stage.held ≠ some xid := by
  have inv := inv_of_reach begins reached
  refine ⟨inv.unique, ?_⟩
  intro i next xid exclusive stepped handed
  simp only [step] at stepped
  split at stepped
  · rename_i known
    rw [pickNext_eq] at stepped
    cases stepped
    have inside := (List.getElem?_eq_some_iff.mp known).1
    obtain rfl : nextXid (totalXids state _) = xid := by
      simpa [handedOut, State.move, List.getElem?_set, inside, Stage.held] using handed
    exact (inv.pick_fresh known exclusive).2
  · cases stepped

theorem account_ids_unique_explicit_then_automatic :
    ∃ state, Reach (step ⟨.user, []⟩) (Exclusive ⟨.user, []⟩) {} state ∧
      xids state.accounts = [3000, 3001] ∧
      (xids state.accounts).Nodup := by
  have start : Start {} := ⟨rfl, rfl, nodup_nil⟩
  exact exists_reach_of_run (P := fun state => xids state.accounts = [3000, 3001])
    [.request (some 3000), .validate 0, .insert 0, .request none, .validate 1, .startNext 1,
      .pickNext 1, .release 0, .insert 1]
    (by decide +kernel) fun state reached ids => ⟨ids, (account_ids_unique start reached).1⟩

/-- Two creates with one explicit id both pass the check, since neither has reserved it and the
name service knows neither; and an id is handed out that a validated create is about to store. -/
theorem account_ids_shared :
    (∃ state, Reach (step ⟨.user, []⟩) Always {} state ∧ xids state.accounts = [3000, 3000]) ∧
      ∃ state, Reach (step ⟨.user, []⟩) Always {} state ∧
        (step ⟨.user, []⟩ state (.pickNext 1)).any (fun next => handedOut next 1 = some 3000) ∧
        ∃ create ∈ state.creates, create.stage.held = some 3000 := by
  constructor
  · apply exists_reach_of_exec [.request (some 3000), .request (some 3000), .validate 0,
      .validate 1, .insert 0, .insert 1]
    decide +kernel
  · apply exists_reach_of_exec
      [.request (some 3000), .validate 0, .request none, .validate 1, .startNext 1]
    decide +kernel

end TruenasMiddleware.Accounts
