import TruenasMiddleware.Accounts.Ids

/-! What `get_next_uid` and `get_next_gid` return. The query leaves out builtin accounts, and the
largest id bounds the search from above only. -/

namespace TruenasMiddleware.Accounts

open List

abbrev usedXids (kind : Kind) (state : State) : List Nat :=
  totalXids state (allocatedXids kind state)

/-- `get_next_uid` and `get_next_gid`: the id, and the reservations afterwards. -/
def getNextXid (kind : Kind) (state : State) : Option (Nat × ReservedXid) :=
  let inFlight := (ReservedXid.inUse state.now state.inFlight).1
  let xid := nextXid (usedXids kind state)
  (ReservedXid.addEntry state.now xid inFlight).map fun inFlight => (xid, inFlight)

theorem pickNext_eq_getNextXid (kind : Kind) (state : State) (i : Nat) :
    pickNext state i (allocatedXids kind state) = (getNextXid kind state).map fun next =>
      { state.move i ⟨none, .chosen next.1⟩ with inFlight := next.2 } := by
  simp only [pickNext, getNextXid, Option.map_map, Function.comp_def]

structure LeastFree (state : State) (xid : Nat) : Prop where
  auto : MIN_AUTO_XID ≤ xid
  unused : xid ∉ xids state.accounts
  unreserved : ReservedXid.live state.now state.inFlight xid = false
  least : ∀ other, MIN_AUTO_XID ≤ other → other ∉ xids state.accounts →
    ReservedXid.live state.now state.inFlight other = false → xid ≤ other

def ReturnsLeast (kind : Kind) (state : State) : Prop :=
  ∃ xid inFlight, getNextXid kind state = some (xid, inFlight) ∧ LeastFree state xid ∧
    ReservedXid.live state.now inFlight xid = true

/-! ### The search -/

variable {total : List Nat}

theorem maxXid_mem (some_there : total ≠ []) : maxXid total ∈ total := by
  rw [maxXid]
  cases largest : total.max? with
  | none => exact absurd (List.max?_eq_none_iff.mp largest) some_there
  | some max => exact List.max?_mem largest

variable {xid first : Nat}

theorem mem_gaps :
    xid ∈ gaps total ↔ (MIN_AUTO_XID ≤ xid ∧ xid < maxXid total) ∧ xid ∉ total := by
  rw [gaps, mem_filter, mem_range'_1, decide_eq_true_eq]
  refine and_congr_left fun _ => and_congr_right fun _ => ?_
  omega

theorem head_gaps_le (head : (gaps total).head? = some first)
    (mem : xid ∈ gaps total) : first ≤ xid := by
  have sorted : (gaps total).Pairwise (· < ·) := (pairwise_lt_range' ..).filter _
  generalize gaps total = list at head mem sorted
  cases list with
  | nil => cases mem
  | cons gap rest =>
    cases head
    rcases mem_cons.mp mem with rfl | later
    · exact Nat.le_refl _
    · exact Nat.le_of_lt ((pairwise_cons.mp sorted).1 xid later)

theorem mem_of_lt_nextXid (auto : MIN_AUTO_XID ≤ xid) (below : xid < nextXid total) :
    xid ∈ total := by
  by_contra free
  rw [nextXid] at below
  cases head : (gaps total).head? with
  | none =>
    rw [head, Option.getD_none] at below
    have none_there : xid ∉ gaps total := by
      rw [List.head?_eq_none_iff.mp head]
      exact not_mem_nil
    have last : ¬ xid < maxXid total := fun lower => none_there (mem_gaps.mpr ⟨⟨auto, lower⟩, free⟩)
    obtain rfl : xid = maxXid total := by omega
    refine free (maxXid_mem ?_)
    rintro rfl
    exact absurd auto (by decide)
  | some gap =>
    rw [head, Option.getD_some] at below
    have mem := (mem_gaps.mp (mem_of_mem_head? head)).1
    have bound := head_gaps_le head (mem_gaps.mpr ⟨⟨auto, by omega⟩, free⟩)
    omega

theorem auto_nextXid_iff : MIN_AUTO_XID ≤ nextXid total ↔
      (total ≠ [] → ∃ xid ∈ total, MIN_AUTO_XID - 1 ≤ xid) := by
  rw [nextXid]
  cases head : (gaps total).head? with
  | some gap =>
    have inside := (mem_gaps.mp (mem_of_mem_head? head)).1
    refine iff_of_true inside.1 fun some_there => ⟨_, maxXid_mem some_there, ?_⟩
    omega
  | none =>
    rw [Option.getD_none]
    constructor
    · intro auto some_there
      exact ⟨_, maxXid_mem some_there, by omega⟩
    · intro reaches
      by_cases empty : total = []
      · rw [empty]
        decide
      · obtain ⟨xid, inside, high⟩ := reaches empty
        have bound := le_maxXid inside
        omega

/-! ### The call -/

section Call

variable {kind : Kind} {state : State}

theorem mem_allocatedXids {xid : Nat} : xid ∈ allocatedXids kind state ↔
      (∃ row ∈ state.accounts, row.builtin = false ∧ MIN_AUTO_XID ≤ xid ∧ row.xid = xid) ∨
      kind = .group ∧ xid ∈ state.usedLocalGids ∧ MIN_AUTO_XID ≤ xid := by
  cases kind <;> simp [allocatedXids, xids, and_assoc] <;> grind

theorem mem_totalXids {xid : Nat} : xid ∈ usedXids kind state ↔ xid ∈ allocatedXids kind state ∨
      ReservedXid.live state.now state.inFlight xid = true := by
  rw [usedXids, totalXids, mem_append, ReservedXid.mem_inUse]

theorem getNextXid_eq (kind : Kind) (state : State) :
    ∃ inFlight, getNextXid kind state = some (nextXid (usedXids kind state), inFlight) ∧
      ReservedXid.live state.now inFlight (nextXid (usedXids kind state)) = true := by
  have free := nextXid_not_mem (usedXids kind state)
  have unreserved := mt (mem_append_right (allocatedXids kind state)) free
  refine ⟨_, by rw [getNextXid, ReservedXid.addEntry_inUse unreserved]; rfl, ?_⟩
  rw [ReservedXid.live, Dict.lookup_set, if_pos rfl]
  exact decide_eq_true (by simp [LOCKED_XID_TTL])

/-- The ids that the search leaves out: those of accounts that are not builtin, the reserved ones
and, for groups, the ones that privileges name. -/
def Counted (kind : Kind) (state : State) (xid : Nat) : Prop :=
  (∃ row ∈ state.accounts, row.builtin = false ∧ MIN_AUTO_XID ≤ xid ∧ row.xid = xid) ∨
    (kind = .group ∧ xid ∈ state.usedLocalGids ∧ MIN_AUTO_XID ≤ xid) ∨
    ReservedXid.live state.now state.inFlight xid = true

/-- All automatic ids below this one are left out. -/
def CountedBelow (kind : Kind) (state : State) (xid : Nat) : Prop :=
  ∀ lower, MIN_AUTO_XID ≤ lower → lower < xid → Counted kind state lower

structure Ordinary (kind : Kind) (state : State) : Prop where
  /-- Reservations below the automatic ids are not the only ids there are. -/
  reaches : (∃ xid, Counted kind state xid) → ∃ xid, Counted kind state xid ∧ MIN_AUTO_XID - 1 ≤ xid
  builtin : ∀ row ∈ state.accounts, row.builtin = true → MIN_AUTO_XID ≤ row.xid →
    CountedBelow kind state row.xid → Counted kind state row.xid
  privileges : kind = .group → ∀ gid ∈ state.usedLocalGids, MIN_AUTO_XID ≤ gid →
    CountedBelow kind state gid →
    gid ∈ xids state.accounts ∨ ReservedXid.live state.now state.inFlight gid = true

theorem mem_usedXids {xid : Nat} : xid ∈ usedXids kind state ↔ Counted kind state xid := by
  rw [mem_totalXids, mem_allocatedXids, or_assoc, Counted]

theorem reaches_iff : MIN_AUTO_XID ≤ nextXid (usedXids kind state) ↔
    ((∃ xid, Counted kind state xid) →
      ∃ xid, Counted kind state xid ∧ MIN_AUTO_XID - 1 ≤ xid) := by
  simp only [auto_nextXid_iff, ← List.isEmpty_eq_false_iff, List.isEmpty_eq_false_iff_exists_mem,
    mem_usedXids]

theorem countedBelow_nextXid : CountedBelow kind state (nextXid (usedXids kind state)) :=
  fun _ auto below => mem_usedXids.mp (mem_of_lt_nextXid auto below)

theorem le_nextXid_of_countedBelow (auto : MIN_AUTO_XID ≤ nextXid (usedXids kind state))
    {xid : Nat} (below : CountedBelow kind state xid) : xid ≤ nextXid (usedXids kind state) :=
  Nat.not_lt.mp fun lower =>
    nextXid_not_mem (usedXids kind state) (mem_usedXids.mpr (below _ auto lower))

theorem leastFree_iff : LeastFree state (nextXid (usedXids kind state)) ↔ Ordinary kind state := by
  have outside := mt mem_usedXids.mpr (nextXid_not_mem (usedXids kind state))
  constructor
  · intro free
    refine ⟨reaches_iff.mp free.auto, fun row mem _ auto below => ?_,
      fun isGroup gid used auto below => ?_⟩
    · by_contra uncounted
      have lower := le_nextXid_of_countedBelow free.auto below
      have upper : nextXid (usedXids kind state) ≤ row.xid :=
        Nat.not_lt.mp fun lower => uncounted (countedBelow_nextXid _ auto lower)
      exact free.unused (mem_map.mpr ⟨row, mem, Nat.le_antisymm lower upper⟩)
    · by_contra unused
      obtain ⟨outside', unreserved⟩ := not_or.mp unused
      have upper := free.least gid auto outside' ((Bool.not_eq_true _).mp unreserved)
      have lower := le_nextXid_of_countedBelow free.auto below
      exact outside (Nat.le_antisymm upper lower ▸ .inr (.inl ⟨isGroup, used, auto⟩))
  · intro ordinary
    have auto := reaches_iff.mpr ordinary.reaches
    refine ⟨auto, fun inside => ?_, (Bool.not_eq_true _).mp fun live => outside (.inr (.inr live)),
      fun other auto' unused free => Nat.not_lt.mp fun below => ?_⟩
    · obtain ⟨row, mem, eq⟩ := mem_map.mp inside
      cases builtin : row.builtin with
      | true =>
        exact outside (eq ▸ ordinary.builtin row mem builtin (eq ▸ auto)
          (eq ▸ countedBelow_nextXid))
      | false => exact outside (.inl ⟨row, mem, builtin, auto, eq⟩)
    · rcases countedBelow_nextXid other auto' below with
        ⟨row, mem, _, _, eq⟩ | ⟨isGroup, used, _⟩ | live
      · exact unused (mem_map.mpr ⟨row, mem, eq⟩)
      · rcases ordinary.privileges isGroup other used auto'
          fun lower auto smaller => countedBelow_nextXid lower auto (smaller.trans below) with
          inside | live
        · exact unused inside
        · exact Bool.false_ne_true (free.symm.trans live)
      · exact Bool.false_ne_true (free.symm.trans live)

end Call

theorem ReturnsLeast.ordinary {kind : Kind} {state : State} (returns : ReturnsLeast kind state) :
    Ordinary kind state := by
  obtain ⟨xid, _, returned, free, _⟩ := returns
  obtain ⟨inFlight, eq, _⟩ := getNextXid_eq kind state
  rw [eq] at returned
  obtain ⟨rfl, _⟩ := Prod.mk.inj (Option.some.inj returned)
  exact leastFree_iff.mp free

/-- The call always reserves what it returns, and that is the least free id exactly in ordinary
states. -/
theorem next_xid_least_iff (kind : Kind) (state : State) :
    ReturnsLeast kind state ↔ Ordinary kind state := by
  constructor
  · exact ReturnsLeast.ordinary
  · intro ordinary
    obtain ⟨inFlight, returned, reserved⟩ := getNextXid_eq kind state
    exact ⟨_, inFlight, returned, leastFree_iff.mpr ordinary, reserved⟩

/-- A builtin account has the first automatic id; one id below the automatic ones is reserved; a
privilege names a group that does not exist. -/
theorem next_xid_not_least : ¬ ReturnsLeast .user { accounts := [⟨3000, true, none⟩] } ∧
    ¬ ReturnsLeast .user { inFlight := [(100, 10)] } ∧
    ¬ ReturnsLeast .group { usedLocalGids := [3000] } := by
  have first : ∀ kind state, CountedBelow kind state 3000 :=
    fun _ _ lower auto below => absurd (Nat.lt_of_le_of_lt auto below) (by decide)
  refine ⟨fun returns => ?_, fun returns => ?_, fun returns => ?_⟩
  · have counted := returns.ordinary.builtin _ mem_cons_self rfl (Nat.le_refl _) (first _ _)
    simp [Counted, ReservedXid.live] at counted
  · obtain ⟨xid, counted, high⟩ := returns.ordinary.reaches ⟨100, .inr (.inr (by decide))⟩
    have reserved : ReservedXid.live 0 [(100, 10)] xid = true := by simpa [Counted] using counted
    have low : xid = 100 := by
      by_contra other
      rw [ReservedXid.live, Dict.lookup_cons, if_neg other] at reserved
      cases reserved
    exact absurd (low ▸ high) (by decide)
  · have missing := returns.ordinary.privileges rfl 3000 mem_cons_self (Nat.le_refl _) (first _ _)
    revert missing
    decide

end TruenasMiddleware.Accounts
