import TruenasMiddleware.Kmip.Model

/-! Every key stays recoverable while jobs push and pull: a job may destroy a secret only once no
row depends on it, and a row drops its key only for a secret that holds it. -/

namespace TruenasMiddleware.Kmip

open Transition List Option Vault

variable {keys : Slot → String} {vault next last : Vault} {slot : Slot} {id other uid : Nat}

structure Named (vault : Vault) (slot : Slot) (uid : Nat) : Prop where
  known : uid < vault.fresh
  slot : (vault.history uid).slot = slot
  named : (vault.history uid).named = true

def Spent (keys : Slot → String) (vault : Vault) (slot : Slot) (uid : Nat) : Prop :=
  keys slot ≠ "" → vault.db slot ≠ ⟨"", some uid⟩

structure Snapshot (keys : Slot → String) (vault : Vault) (slot : Slot) (row : Row) : Prop where
  key : keys slot ≠ "" → row.key = "" ∨ row.key = keys slot
  named : ∀ uid, row.uid = some uid → Named vault slot uid
  spent : row.key ≠ "" → ∀ uid, row.uid = some uid → Spent keys vault slot uid
  secret : keys slot ≠ "" → row.key = "" →
    ∀ uid key, row.uid = some uid → vault.server uid = some key → key = keys slot

def Remembered (keys : Slot → String) (vault : Vault) (slot : Slot) : Prop :=
  keys slot ≠ "" → ∀ key, vault.memory slot = some key → key = keys slot

def Phase.Inv (keys : Slot → String) (vault : Vault) (id : Nat) : Phase → Prop
  | .idle => True
  | .remember slot key => keys slot ≠ "" → key = keys slot
  | .destroy slot key uid =>
    (keys slot ≠ "" → key = keys slot) ∧ (Named vault slot uid ∧ Spent keys vault slot uid) ∧
      (slot ≠ .global → Remembered keys vault slot)
  | .forget key => keys .global ≠ "" → key = keys .global
  | .register slot key _ => (keys slot ≠ "" → key = keys slot) ∧ Remembered keys vault slot
  | .store slot uid =>
    uid < vault.fresh ∧ vault.history uid = ⟨slot, id, false⟩ ∧
      (keys slot ≠ "" → vault.server uid = some (keys slot))
  | .forgetUid _ => True
  | .write slot key uid =>
    (keys slot ≠ "" → key = keys slot) ∧ ∀ u, uid = some u → Named vault slot u
  | .pop slot uid => ∀ u, uid = some u → Named vault slot u ∧ Spent keys vault slot u
  | .delete slot uid => ∀ u, uid = some u → Named vault slot u ∧ Spent keys vault slot u

/-- The key of each slot is in its row, or in the secret that the row names. -/
structure Rows (keys : Slot → String) (vault : Vault) : Prop where
  named : ∀ slot uid, (vault.db slot).uid = some uid → Named vault slot uid
  kept : ∀ slot, keys slot ≠ "" → (vault.db slot).key = keys slot ∨
    (vault.db slot).key = "" ∧ ∃ uid, (vault.db slot).uid = some uid ∧
      vault.server uid = some (keys slot)

structure Inv (keys : Slot → String) (state : State) : Prop where
  rows : Rows keys state.vault
  tasks : ∀ id job, state.jobs.lookup id = some job →
    ∀ slot row, .row slot row ∈ job.tasks → Snapshot keys state.vault slot row
  phases : ∀ id job, state.jobs.lookup id = some job → job.phase.Inv keys state.vault id

/-- What a step of job `id` leaves to the other jobs. -/
structure Evolves (keys : Slot → String) (id : Nat) (vault next : Vault) : Prop where
  named : ∀ slot uid, Named vault slot uid → Named next slot uid
  spent : ∀ slot uid, Named vault slot uid → Spent keys vault slot uid → Spent keys next slot uid
  fresh : vault.fresh ≤ next.fresh
  secrets : ∀ uid key, uid < vault.fresh → next.server uid = some key → vault.server uid = some key
  pending : ∀ uid slot other, other ≠ id → uid < vault.fresh →
    vault.history uid = ⟨slot, other, false⟩ →
      uid < next.fresh ∧ next.history uid = vault.history uid ∧ next.server uid = vault.server uid
  memory : ∀ slot, Remembered keys vault slot → Remembered keys next slot

theorem Evolves.refl : Evolves keys id vault vault :=
  ⟨fun _ _ named => named, fun _ _ _ spent => spent, Nat.le_refl _, fun _ _ _ found => found,
    fun _ _ _ _ known _ => ⟨known, rfl, rfl⟩, fun _ remembered => remembered⟩

theorem Evolves.trans (first : Evolves keys id vault next)
    (second : Evolves keys id next last) : Evolves keys id vault last := by
  refine ⟨?_, ?_, Nat.le_trans first.fresh second.fresh, ?_, ?_, ?_⟩
  · intro slot uid named
    exact second.named slot uid (first.named slot uid named)
  · intro slot uid named spent
    exact second.spent slot uid (first.named slot uid named) (first.spent slot uid named spent)
  · intro uid key known found
    exact first.secrets uid key known
      (second.secrets uid key (Nat.lt_of_lt_of_le known first.fresh) found)
  · intro uid slot other different known history
    obtain ⟨known', history', server'⟩ := first.pending uid slot other different known history
    obtain ⟨known'', history'', server''⟩ :=
      second.pending uid slot other different known' (history'.trans history)
    exact ⟨known'', history''.trans history', server''.trans server'⟩
  · intro slot remembered
    exact second.memory slot (first.memory slot remembered)

theorem Snapshot.evolves {row : Row} (snapshot : Snapshot keys vault slot row)
    (evolves : Evolves keys id vault next) : Snapshot keys next slot row := by
  refine ⟨snapshot.key, ?_, ?_, ?_⟩
  · intro uid given
    exact evolves.named slot uid (snapshot.named uid given)
  · intro key uid given
    exact evolves.spent slot uid (snapshot.named uid given) (snapshot.spent key uid given)
  · intro kept empty uid key given found
    exact snapshot.secret kept empty uid key given
      (evolves.secrets uid key (snapshot.named uid given).known found)

theorem Phase.Inv.evolves {phase : Phase} (inv : phase.Inv keys vault other)
    (different : other ≠ id) (evolves : Evolves keys id vault next) :
    phase.Inv keys next other := by
  have dead : ∀ slot uid, Named vault slot uid ∧ Spent keys vault slot uid →
      Named next slot uid ∧ Spent keys next slot uid := fun slot uid both =>
    ⟨evolves.named slot uid both.1, evolves.spent slot uid both.1 both.2⟩
  cases phase with
  | destroy slot key uid =>
    obtain ⟨eq, both, remembered⟩ := inv
    exact ⟨eq, dead slot uid both, fun other => evolves.memory slot (remembered other)⟩
  | register slot key destroyed => exact ⟨inv.1, evolves.memory slot inv.2⟩
  | store slot uid =>
    obtain ⟨known, history, secret⟩ := inv
    obtain ⟨stillKnown, sameHistory, sameSecret⟩ :=
      evolves.pending uid slot other different known history
    exact ⟨stillKnown, sameHistory.trans history, fun kept => sameSecret.trans (secret kept)⟩
  | write slot key uid => exact ⟨inv.1, fun u given => evolves.named slot u (inv.2 u given)⟩
  | pop slot uid | delete slot uid => exact fun u given => dead slot u (inv u given)
  | _ => exact inv

section Effects

theorem evolves_memory {memory : Slot → Option String}
    (kept : ∀ slot, Remembered keys vault slot →
      Remembered keys { vault with memory := memory } slot) :
    Evolves keys id vault { vault with memory := memory } :=
  ⟨fun _ _ named => { named with }, fun _ _ _ spent => spent, Nat.le_refl _,
    fun _ _ _ found => found, fun _ _ _ _ known _ => ⟨known, rfl, rfl⟩, kept⟩

theorem remembered_remember {key : Option String}
    (eq : keys slot ≠ "" → ∀ k, key = some k → k = keys slot) :
    Remembered keys (vault.remember slot key) slot := by
  intro kept k found
  rw [remember_memory, if_pos rfl] at found
  exact eq kept k found

theorem remembers_key {key : String} (eq : keys slot ≠ "" → key = keys slot) :
    keys slot ≠ "" → ∀ k, some key = some k → k = keys slot := by
  rintro kept _ ⟨⟩
  exact eq kept

theorem evolves_remember {key : Option String}
    (eq : keys slot ≠ "" → ∀ k, key = some k → k = keys slot) :
    Evolves keys id vault (vault.remember slot key) := by
  refine evolves_memory fun other remembered => ?_
  by_cases here : other = slot
  · subst here
    exact remembered_remember eq
  · intro kept k found
    change (vault.remember slot key).memory other = some k at found
    rw [remember_memory, if_neg here] at found
    exact remembered kept k found

theorem evolves_clearZfs : Evolves keys id vault vault.clearZfs := by
  refine evolves_memory fun slot remembered => ?_
  cases slot with
  | zfs i => exact fun _ _ found => nomatch found
  | disk | global => exact remembered

theorem Rows.memory {memory : Slot → Option String} (rows : Rows keys vault) :
    Rows keys { vault with memory := memory } :=
  ⟨fun slot uid given =>
    let named := rows.named slot uid given
    { named with }, rows.kept⟩

variable {key : String} {uid : Nat} {row : Row}

theorem Named.ne {other : Slot} {job u : Nat} (named : Named vault slot uid)
    (history : vault.history u = ⟨other, job, false⟩) : uid ≠ u := by
  rintro rfl
  have marked := named.named
  rw [history] at marked
  cases marked

theorem evolves_erase (named : Named vault slot uid) :
    Evolves keys id vault (vault.erase uid) := by
  refine ⟨fun _ _ other => { other with }, fun _ _ _ spent => spent,
    Nat.le_refl _, ?_, ?_, fun _ remembered => remembered⟩
  · intro other key known found
    rw [erase_server] at found
    split_ifs at found
    exact found
  · intro other slot' job different known history
    exact ⟨known, rfl, by rw [erase_server, if_neg (named.ne history).symm]⟩

theorem Rows.erase (rows : Rows keys vault) (named : Named vault slot uid)
    (spent : Spent keys vault slot uid) : Rows keys (vault.erase uid) := by
  refine ⟨(fun other u given =>
    let known := rows.named other u given
    { known with }), ?_⟩
  intro other kept
  refine (rows.kept other kept).imp_right ?_
  rintro ⟨empty, u, given, secret⟩
  refine ⟨empty, u, given, ?_⟩
  have different : u ≠ uid := by
    rintro rfl
    have eq : other = slot := (rows.named other u given).slot.symm.trans named.slot
    subst eq
    refine spent kept ?_
    rw [← empty, ← given]
  rw [erase_server, if_neg different]
  exact secret

theorem evolves_register : Evolves keys id vault (vault.register slot id key) := by
  have old : ∀ uid, uid < vault.fresh → uid ≠ vault.fresh := fun uid known => by omega
  have known : ∀ uid, uid < vault.fresh → uid < (vault.register slot id key).fresh := by
    intro uid known
    exact Nat.lt_succ_of_lt known
  refine ⟨?_, fun _ _ _ spent => spent, Nat.le_succ _, ?_, ?_, fun _ remembered => remembered⟩
  · intro other uid named
    have eq := register_history vault slot id key uid
    rw [if_neg (old uid named.known)] at eq
    exact ⟨known uid named.known, eq ▸ named.slot, eq ▸ named.named⟩
  · intro uid secret before found
    rwa [register_server, if_neg (old uid before)] at found
  · intro uid other job different before history
    refine ⟨known uid before, ?_, ?_⟩
    · rw [register_history, if_neg (old uid before)]
    · rw [register_server, if_neg (old uid before)]

theorem Rows.register (rows : Rows keys vault) :
    Rows keys (vault.register slot id key) := by
  have evolves : Evolves keys id vault (vault.register slot id key) := evolves_register
  refine ⟨fun other uid given => evolves.named other uid (rows.named other uid given), ?_⟩
  intro other kept
  refine (rows.kept other kept).imp_right ?_
  rintro ⟨empty, uid, given, secret⟩
  have known := (rows.named other uid given).known
  refine ⟨empty, uid, given, ?_⟩
  rw [register_server, if_neg (by omega)]
  exact secret

theorem evolves_write (none : row.uid = none) :
    Evolves keys id vault (vault.write slot row) := by
  refine ⟨fun _ _ named => { named with }, ?_, Nat.le_refl _,
    fun _ _ _ found => found, fun _ _ _ _ known _ => ⟨known, rfl, rfl⟩,
    fun _ remembered => remembered⟩
  intro other uid _ spent kept
  rw [write_db]
  split_ifs
  · rintro rfl
    cases none
  · exact spent kept

theorem Rows.write (rows : Rows keys vault) (none : row.uid = none)
    (key : keys slot ≠ "" → row.key = keys slot) : Rows keys (vault.write slot row) := by
  refine ⟨?_, ?_⟩
  · intro other uid given
    rw [write_db] at given
    split_ifs at given
    · rw [none] at given
      cases given
    · obtain ⟨known, slot, named⟩ := rows.named other uid given
      exact ⟨known, slot, named⟩
  · intro other kept
    rw [write_db]
    split_ifs with here
    · subst here
      exact .inl (key kept)
    · exact rows.kept other kept

theorem evolves_store (history : vault.history uid = ⟨slot, id, false⟩) :
    Evolves keys id vault (vault.store slot uid) := by
  refine ⟨?_, ?_, Nat.le_refl _, fun _ _ _ found => found, ?_, fun _ remembered => remembered⟩
  · intro other u named
    have eq := store_history vault slot uid u
    rw [if_neg (named.ne history)] at eq
    exact ⟨named.known, eq ▸ named.slot, eq ▸ named.named⟩
  · intro other u named spent kept
    rw [store_db]
    split_ifs
    · intro eq
      exact named.ne history (Option.some.inj (congrArg Row.uid eq)).symm
    · exact spent kept
  · intro u other job another known before
    have elsewhere : u ≠ uid := by
      rintro rfl
      rw [history] at before
      exact another (congrArg Registered.job before).symm
    exact ⟨known, by rw [store_history, if_neg elsewhere], rfl⟩

theorem Rows.store (rows : Rows keys vault) (known : uid < vault.fresh)
    (history : vault.history uid = ⟨slot, id, false⟩)
    (secret : keys slot ≠ "" → vault.server uid = some (keys slot)) :
    Rows keys (vault.store slot uid) := by
  have evolves : Evolves keys id vault (vault.store slot uid) := evolves_store history
  refine ⟨?_, ?_⟩
  · intro other u given
    rw [store_db] at given
    split_ifs at given with here
    · cases given
      have marked := store_history vault slot uid uid
      rw [if_pos rfl, history] at marked
      exact ⟨known, by rw [marked, here], by rw [marked]⟩
    · exact evolves.named other u (rows.named other u given)
  · intro other kept
    rw [store_db]
    split_ifs with here
    · subst here
      exact .inr ⟨rfl, uid, rfl, secret kept⟩
    · exact rows.kept other kept

end Effects

theorem registrationFailed_inv {destroyed : Bool} :
    (registrationFailed slot destroyed).Inv keys vault id := by
  rw [registrationFailed]
  split <;> trivial

section Step

variable (rows : Rows keys vault)
include rows

theorem Rows.current (kept : keys slot ≠ "") : vault.current slot = keys slot := by
  rw [Vault.current, Vault.secret]
  rcases rows.kept slot kept with here | ⟨empty, uid, given, secret⟩
  · rw [here, if_neg kept]
  · rw [if_pos empty, given, bind_some, secret, getD_some]

theorem Rows.snapshot : Snapshot keys vault slot (vault.db slot) := by
  refine ⟨?_, rows.named slot, ?_, ?_⟩
  · intro kept
    exact (rows.kept slot kept).symm.imp_left And.left
  · intro key uid _ _ eq
    exact key (congrArg Row.key eq)
  · intro kept empty uid key given found
    rcases rows.kept slot kept with here | ⟨-, u, named, secret⟩
    · exact absurd (here.symm.trans empty) kept
    · rw [given] at named
      rw [Option.some.inj named, secret] at found
      exact (Option.some.inj found).symm

/-- What a phase needs of the vault: the row still holds the key when its uid is dropped, and the
global password is still in memory when it is registered. -/
def CarefulPhase (vault : Vault) : Phase → Prop
  | .forget _ => (vault.db .global).key ≠ ""
  | .forgetUid slot => (vault.db slot).key ≠ ""
  | .register .global key _ => vault.memory .global = some key
  | _ => True

/-- A pull that comes to a SED row without a password finds the right one in memory, or none. -/
def CarefulRow (vault : Vault) (mode : Mode) (row : Row) : Slot → Prop
  | .zfs _ => True
  | slot =>
    mode = .pull → row.key = "" → ∀ key ∈ vault.memory slot, key ≠ "" → vault.current slot ≠ "" →
      key = vault.current slot

def CarefulTask (vault : Vault) (mode : Mode) : List Task → Prop
  | .row slot row :: _ => CarefulRow vault mode row slot
  | _ => True

def CarefulJob (vault : Vault) (job : Job) : Prop :=
  CarefulPhase vault job.phase ∧ (job.phase = .idle → CarefulTask vault job.mode job.tasks)

def Careful (state : State) : Label → Prop
  | .run id _ => ∀ job ∈ state.jobs.lookup id, CarefulJob state.vault job
  | _ => True

instance (vault : Vault) (phase : Phase) : Decidable (CarefulPhase vault phase) := by
  unfold CarefulPhase
  split <;> infer_instance

instance (vault : Vault) (mode : Mode) (row : Row) (slot : Slot) :
    Decidable (CarefulRow vault mode row slot) := by
  cases slot <;> unfold CarefulRow <;> infer_instance

instance (vault : Vault) (mode : Mode) (tasks : List Task) :
    Decidable (CarefulTask vault mode tasks) := by
  unfold CarefulTask
  split <;> infer_instance

instance (state : State) (label : Label) : Decidable (Careful state label) := by
  cases label <;> unfold Careful CarefulJob <;> infer_instance

def Sound (keys : Slot → String) (id : Nat) (vault : Vault) (result : Vault × Phase) : Prop :=
  Evolves keys id vault result.1 ∧ Rows keys result.1 ∧ result.2.Inv keys result.1 id

theorem sound_idle : Sound keys id vault (vault, .idle) :=
  ⟨.refl, rows, trivial⟩

variable {destroyed gone : Bool} {phase : Phase}

theorem registerKey_sound {answer : Answer}
    (value : keys slot ≠ "" → ∀ key, toRegister vault slot = some key → key = keys slot) :
    Sound keys id vault (registerKey vault id slot destroyed answer) := by
  rw [registerKey]
  cases found : toRegister vault slot with
  | none => exact ⟨.refl, rows, registrationFailed_inv⟩
  | some key =>
    dsimp only
    split_ifs
    · refine ⟨evolves_register, rows.register, Nat.lt_succ_self _, ?_, ?_⟩
      · rw [register_history, if_pos rfl]
      · intro kept
        rw [register_server, if_pos rfl, value kept key found]
    · exact ⟨evolves_register, rows.register, registrationFailed_inv⟩
    · exact ⟨.refl, rows, registrationFailed_inv⟩

theorem erase_sound (dead : Named vault slot uid ∧ Spent keys vault slot uid)
    (inv : ∀ next : Vault, next.memory = vault.memory → phase.Inv keys next id) :
    Sound keys id vault (if gone then vault.erase uid else vault, phase) := by
  split_ifs
  · exact ⟨evolves_erase dead.1, rows.erase dead.1 dead.2, inv _ rfl⟩
  · exact ⟨.refl, rows, inv _ rfl⟩

theorem Phase.Inv.advance (answer : Answer) (inv : phase.Inv keys vault id)
    (careful : CarefulPhase vault phase) :
    Sound keys id vault (advancePhase vault id answer phase) := by
  cases phase with
  | idle => exact sound_idle rows
  | remember slot key =>
    exact ⟨evolves_remember (remembers_key inv), rows.memory, trivial⟩
  | destroy slot key uid =>
    obtain ⟨eq, dead, remembered⟩ := inv
    have memory : ∀ next : Vault, next.memory = vault.memory → slot ≠ .global →
        Remembered keys next slot := by
      intro next memory other kept m found
      rw [memory] at found
      exact remembered other kept m found
    cases slot with
    | global => exact erase_sound rows dead fun _ _ => eq
    | zfs i | disk i =>
      exact erase_sound rows dead fun next unchanged => ⟨eq, memory next unchanged nofun⟩
  | forget key =>
    have dropped : Rows keys (vault.write .global { vault.db .global with uid := none }) := by
      refine rows.write rfl ?_
      intro kept
      exact (rows.kept .global kept).resolve_right fun dropped => careful dropped.1
    have eq := remembers_key inv
    exact ⟨(evolves_write rfl).trans (evolves_remember eq), dropped.memory, inv,
      remembered_remember eq⟩
  | register slot key destroyed =>
    refine registerKey_sound rows ?_
    intro kept k found
    cases slot with
    | global =>
      have given : vault.memory .global = some key := careful
      rw [toRegister, given] at found
      exact (Option.some.inj found).symm.trans (inv.1 kept)
    | zfs | disk => exact inv.2 kept k found
  | store slot uid =>
    obtain ⟨known, history, secret⟩ := inv
    exact ⟨evolves_store history, rows.store known history secret, trivial⟩
  | forgetUid slot =>
    refine ⟨evolves_write rfl, rows.write rfl ?_, trivial⟩
    intro kept
    exact (rows.kept slot kept).resolve_right fun dropped => careful dropped.1
  | write slot key uid =>
    rw [advancePhase]
    split_ifs
    · exact sound_idle rows
    · refine ⟨evolves_write rfl, rows.write rfl inv.1, ?_⟩
      intro u given
      have named := inv.2 u given
      refine ⟨{ named with }, ?_⟩
      intro _
      rw [write_db, if_pos rfl]
      exact nofun
  | pop slot uid =>
    refine ⟨evolves_remember nofun, rows.memory, ?_⟩
    simp only [advancePhase]
    split_ifs
    · intro u given
      obtain ⟨named, spent⟩ := inv u given
      exact ⟨{ named with }, spent⟩
    · trivial
  | delete slot uid =>
    cases uid with
    | none => exact sound_idle rows
    | some uid => exact erase_sound rows (inv uid rfl) fun _ _ => trivial

variable {opens : Nat → String → Bool} {row : Row} {answer : Answer}

def Truthful (keys : Slot → String) (opens : Nat → String → Bool) : Prop :=
  ∀ id key, opens id key = true → keys (.zfs id) ≠ "" → key = keys (.zfs id)

theorem beginPush_sound (snapshot : Snapshot keys vault slot row) :
    Sound keys id vault (beginPush opens vault slot row answer) := by
  unfold beginPush
  by_cases empty : row.key = ""
  · rw [if_pos empty]
    by_cases raises : checkRaises vault answer slot = true
    · rw [if_pos raises]
      exact sound_idle rows
    rw [if_neg raises]
    have retrieved : ∀ key, vault.secret row = some key →
        Sound keys id vault (vault, if answer.ok then .remember slot key else .idle) := by
      intro key found
      split_ifs
      · obtain ⟨uid, given, secret⟩ := bind_eq_some_iff.mp found
        exact ⟨.refl, rows, fun kept => snapshot.secret kept empty uid key given secret⟩
      · exact sound_idle rows
    split
    · exact sound_idle rows
    · exact retrieved _ (by assumption)
    · exact sound_idle rows
  · have eq : keys slot ≠ "" → row.key = keys slot := fun kept =>
      (snapshot.key kept).resolve_left empty
    have remembers := remembers_key eq
    rw [if_neg empty]
    split
    · rename_i uid given
      exact ⟨.refl, rows, eq, ⟨snapshot.named uid given, snapshot.spent empty uid given⟩,
        fun other => absurd rfl other⟩
    · rename_i uid _ given
      obtain ⟨known, history, named⟩ := snapshot.named uid given
      exact ⟨evolves_remember remembers, rows.memory, eq,
        ⟨⟨known, history, named⟩, snapshot.spent empty uid given⟩,
        fun _ => remembered_remember remembers⟩
    · exact ⟨evolves_remember remembers, rows.memory, eq, remembered_remember remembers⟩

theorem usable_value {key : String} (truthful : Truthful keys opens)
    (careful : CarefulRow vault .pull row slot) (empty : row.key = "")
    (found : usable opens vault slot = some key) (kept : keys slot ≠ "") : key = keys slot := by
  have current := rows.current kept
  cases slot with
  | zfs i =>
    have opened : opens i key = true := (filter_eq_some_iff.mp found).2
    exact truthful i key opened kept
  | disk i | global =>
    obtain ⟨remembered, real⟩ := filter_eq_some_iff.mp found
    have value := careful rfl empty key remembered (of_decide_eq_true real) (current ▸ kept)
    exact value.trans current

theorem beginPull_inv (snapshot : Snapshot keys vault slot row) (truthful : Truthful keys opens)
    (careful : CarefulRow vault .pull row slot) :
    (beginPull opens vault slot row answer).Inv keys vault id := by
  unfold beginPull
  by_cases empty : row.key ≠ ""
  · rw [if_pos empty]
    exact ⟨fun kept => (snapshot.key kept).resolve_left empty, snapshot.named⟩
  rw [if_neg empty]
  by_cases raises : checkRaises vault answer slot = true
  · rw [if_pos raises]
    trivial
  rw [if_neg raises]
  have none : row.key = "" := not_not.mp empty
  split
  · rename_i key found
    exact ⟨usable_value rows truthful careful none found, snapshot.named⟩
  · rename_i key missing found
    split_ifs
    · obtain ⟨uid, given, secret⟩ := bind_eq_some_iff.mp found
      exact ⟨fun kept => snapshot.secret kept none uid key given secret, snapshot.named⟩
    · trivial
  · trivial

variable {job job' : Job} {state : State}

omit rows

theorem queried_row {ids : List Nat} (inside : .row slot row ∈ queried vault job ids) :
    row = vault.db slot := by
  obtain ⟨entry, mem, eq⟩ := mem_map.mp inside
  obtain ⟨i, -, rfl⟩ := mem_map.mp (mem_filter.mp mem).1
  obtain ⟨rfl, rfl⟩ := Task.row.inj eq
  rfl

theorem tasksOf_row {kind : Kind} {mode : Mode} (mem : .row slot row ∈ tasksOf vault kind mode) :
    row = vault.db slot := by
  cases kind <;> cases mode <;> simp [tasksOf] at mem
  obtain ⟨rfl, rfl⟩ := mem
  rfl

theorem Inv.act (inv : Inv keys state)
    (evolves : Evolves keys id state.vault next) (rows : Rows keys next)
    (tasks : ∀ slot row, .row slot row ∈ job.tasks → Snapshot keys next slot row)
    (phase : job.phase.Inv keys next id) : Inv keys ⟨next, Dict.set id job state.jobs⟩ := by
  refine ⟨rows, ?_, ?_⟩
  · intro other found lookup slot row mem
    rw [Dict.lookup_set] at lookup
    split_ifs at lookup
    · cases lookup
      exact tasks slot row mem
    · exact (inv.tasks other found lookup slot row mem).evolves evolves
  · intro other found lookup
    rw [Dict.lookup_set] at lookup
    split_ifs at lookup with here
    · cases lookup
      exact here ▸ phase
    · exact (inv.phases other found lookup).evolves here evolves

theorem beginTask_inv (inv : Inv keys state)
    (truthful : Truthful keys opens) (running : state.jobs.lookup id = some job)
    (idle : job.phase = .idle) (careful : CarefulTask state.vault job.mode job.tasks)
    (taken : beginTask opens state.vault job answer = some (next, job')) :
    Inv keys ⟨next, Dict.set id job' state.jobs⟩ := by
  have read := inv.tasks id job running
  have phase : ∀ vault : Vault, job.phase.Inv keys vault id := by
    intro vault
    rw [idle]
    trivial
  rw [beginTask] at taken
  cases left : job.tasks with rw [left] at taken read careful
  | nil => cases taken
  | cons task rest =>
    have later : ∀ slot row, .row slot row ∈ rest → Snapshot keys state.vault slot row :=
      fun slot row mem => read slot row (mem_cons_of_mem task mem)
    cases task with
    | query =>
      cases taken
      refine inv.act .refl inv.rows ?_ (phase _)
      intro slot row mem
      rcases mem_append.mp mem with now | mem
      · rw [queried_row now]
        exact inv.rows.snapshot
      · exact later slot row mem
    | config =>
      cases taken
      refine inv.act .refl inv.rows ?_ (phase _)
      dsimp only
      intro slot row mem
      split_ifs at mem
      · rcases mem_cons.mp mem with now | mem
        · obtain ⟨rfl, rfl⟩ := Task.row.inj now
          exact inv.rows.snapshot
        · exact later slot row mem
      · exact later slot row mem
    | row slot row =>
      have sound :
          Sound keys id state.vault (beginRow opens state.vault job.mode slot row answer) := by
        have snapshot := read slot row mem_cons_self
        cases mode : job.mode with
        | push => exact beginPush_sound inv.rows snapshot
        | pull =>
          rw [mode] at careful
          exact ⟨.refl, inv.rows, beginPull_inv inv.rows snapshot truthful careful⟩
      cases taken
      obtain ⟨evolves, rows, phase⟩ := sound
      exact inv.act evolves rows
        (fun slot row mem => (later slot row mem).evolves evolves) phase
    | clear =>
      cases taken
      have evolves : Evolves keys id state.vault state.vault.clearZfs := evolves_clearZfs
      exact inv.act evolves inv.rows.memory
        (fun slot row mem => (later slot row mem).evolves evolves) (phase _)

theorem Inv.step {next : State} {label : Label} (inv : Inv keys state)
    (truthful : Truthful keys opens) (careful : Careful state label)
    (taken : step opens state label = some next) : Inv keys next := by
  cases label with rw [Kmip.step] at taken
  | start i kind mode args =>
    split_ifs at taken
    cases taken
    refine inv.act .refl inv.rows ?_ trivial
    intro slot row mem
    rw [tasksOf_row mem]
    exact inv.rows.snapshot
  | run i answer =>
    cases running : state.jobs.lookup i with rw [running] at taken
    | none => cases taken
    | some job =>
      obtain ⟨⟨vault, job'⟩, advanced, rfl⟩ := map_eq_some_iff.mp taken
      obtain ⟨carefulPhase, carefulTask⟩ := careful job running
      unfold advance at advanced
      split at advanced
      · rename_i idle
        exact beginTask_inv inv truthful running idle (carefulTask idle) advanced
      · obtain ⟨evolves, rows, phase⟩ :=
          (inv.phases i job running).advance inv.rows answer carefulPhase
        cases advanced
        exact inv.act evolves rows
          (fun slot row mem => (inv.tasks i job running slot row mem).evolves evolves) phase
  | leave i =>
    cases taken
    have sub : ∀ other job, (Dict.pop i state.jobs).lookup other = some job →
        state.jobs.lookup other = some job := by
      intro other job lookup
      rw [Dict.lookup_pop] at lookup
      split_ifs at lookup
      exact lookup
    exact ⟨inv.rows, fun other job lookup => inv.tasks other job (sub other job lookup),
      fun other job lookup => inv.phases other job (sub other job lookup)⟩

theorem rows_current (named : ∀ slot uid, (vault.db slot).uid = some uid → Named vault slot uid) :
    Rows vault.current vault := by
  refine ⟨named, ?_⟩
  intro slot kept
  by_cases empty : (vault.db slot).key = ""
  · refine .inr ⟨empty, ?_⟩
    rw [Vault.current, if_pos empty, Vault.secret] at kept ⊢
    cases given : (vault.db slot).uid with rw [given] at kept
    | none => exact absurd rfl kept
    | some uid =>
      cases secret : vault.server uid with
      | none => simp [secret] at kept
      | some key => exact ⟨uid, rfl, by simp [secret]⟩
  · refine .inl ?_
    rw [Vault.current, if_neg empty]

/-- Whatever the jobs do, each key that could be recovered at the start can be recovered from its
row after every step: in every run in which no row loses its uid while it does not hold its key,
and no wrong password is taken from memory. -/
theorem keys_recoverable {state : State} (start : Vault)
    (named : ∀ slot uid, (start.db slot).uid = some uid → Named start slot uid)
    (truthful : Truthful start.current opens)
    (reached : Reach (Kmip.step opens) Careful ⟨start, []⟩ state) :
    ∀ slot, start.current slot ≠ "" → state.vault.current slot = start.current slot := by
  have inv : Inv start.current state := by
    refine reached.invariant ⟨rows_current named, ?_, ?_⟩
      fun _ _ _ inv careful stepped => inv.step truthful careful stepped
    all_goals
      intro _ _ lookup
      cases lookup
  intro slot kept
  exact inv.rows.current kept

end Step

/-- One row with the key `new`, which still names a secret with an older key. -/
def replaced (slot : Slot) : Vault where
  db other := if other = slot then ⟨"new", some 0⟩ else {}
  server uid := if uid = 0 then some "old" else none
  fresh := 1
  history _ := ⟨slot, 0, true⟩

def isNew (_ : Nat) (key : String) : Bool := decide (key = "new")

theorem replaced_named (slot : Slot) :
    ∀ other uid, ((replaced slot).db other).uid = some uid → Named (replaced slot) other uid := by
  intro other uid given
  by_cases here : other = slot
  · subst here
    simp only [replaced, if_true, Option.some.injEq] at given
    subst given
    exact ⟨Nat.one_pos, rfl, rfl⟩
  · simp [replaced, here] at given

theorem keys_recoverable_moved :
    ∃ state : State, Reach (step isNew) Careful ⟨replaced (.zfs 1), []⟩ state ∧
      state.vault.db (.zfs 1) = ⟨"", some 1⟩ ∧ state.vault.current (.zfs 1) = "new" := by
  refine exists_reach_of_run (P := fun state => state.vault.db (.zfs 1) = ⟨"", some 1⟩)
    [.start 0 .zfs .push none, .run 0 { ids := [1] }, .start 1 .zfs .pull (some [1]),
      .run 1 { ids := [1] }, .run 0 {}, .run 1 {}, .run 0 {}, .run 0 {}, .run 1 {}, .run 1 {},
      .run 0 {}, .run 1 { ok := false }] (by decide) fun state reached row => ⟨row, ?_⟩
  have truthful : Truthful (replaced (.zfs 1)).current isNew := by
    intro i key opened kept
    have new : (replaced (.zfs 1)).current (.zfs i) = "new" := by
      by_cases here : i = 1
      · rw [here]
        rfl
      · simp [Vault.current, Vault.secret, replaced, here] at kept
    rw [new]
    exact of_decide_eq_true opened
  exact keys_recoverable (replaced (.zfs 1)) (replaced_named _) truthful reached (.zfs 1)
    (by decide)

/-- Two pushes have read the same row. The first one stores the key under a new uid, and the second
one, which had destroyed the old secret, fails to register and takes the uid out of the row; with
the global password it does so before it registers. -/
theorem keys_lost : (∃ state : State, Reach (step isNew) Always ⟨replaced (.zfs 1), []⟩ state ∧
      state.vault.db (.zfs 1) = {}) ∧
    ∃ state : State, Reach (step isNew) Always ⟨replaced .global, []⟩ state ∧
      state.vault.db .global = {} := by
  refine ⟨?_, ?_⟩
  · apply exists_reach_of_exec [.start 0 .zfs .push none, .start 1 .zfs .push (some [1]),
      .run 0 { ids := [1] }, .run 1 { ids := [1] }, .run 0 {}, .run 1 {}, .run 1 {},
      .run 0 { ok := false }, .run 0 {}, .run 0 {}, .run 1 { ok := false }, .run 1 {}]
    decide
  · apply exists_reach_of_exec [.start 0 .sed .push none, .start 1 .sed .push (some [1]),
      .run 0 {}, .run 1 {}, .run 0 {}, .run 1 {}, .run 0 {}, .run 0 {}, .run 0 {}, .run 0 {},
      .run 1 { ok := false }, .run 1 {}]
    decide

end TruenasMiddleware.Kmip
