import TruenasMiddleware.EventSource.Manager

/-! The tables of the event source manager agree with each other, and a call that raises leaves
them alone, exactly when the call does not raise half-way. -/

namespace TruenasMiddleware.EventSource

open Transition List Option Function Dict Tables

variable {App Object : Type} {sources : Sources Object} {tables : Tables App} {key : Key}
  {ident : String} {data : IdentData App} {failing : List String}

/-- A subscription set holds the idents that are registered for it, and only a set with idents
has an instance, which is running. -/
structure Bookkept (tables : Tables App) : Prop where
  sets : ∀ key ident, ident ∈ tables.subscriptions key ↔
    ∃ data, tables.idents.lookup ident = some data ∧ data.key = key
  stored : ∀ key, (tables.instances key).isSome ↔ (tables.subscriptions key).Nonempty
  started : ∀ key inst, tables.instances key = some inst → inst.started = true

theorem lookup_popIdent (tables : Tables App) (ident other : String) :
    (tables.popIdent ident).idents.lookup other =
      if other = ident then none else tables.idents.lookup other :=
  lookup_pop _ _ _

theorem mem_keys_popIdent {other : String} : other ∈ Dict.keys (tables.popIdent ident).idents ↔
      other ≠ ident ∧ other ∈ Dict.keys tables.idents := by
  rw [← lookup_isSome, lookup_popIdent, ← lookup_isSome]
  split_ifs with eq <;> simp [eq]

def removed (tables : Tables App) (ident : String) (key : Key) : Tables App :=
  (tables.popIdent ident).setSubscriptions key ((tables.subscriptions key).erase ident)

theorem unsubscribe_eq (found : tables.idents.lookup ident = some data)
    (mem : ident ∈ tables.subscriptions data.key) (stored : (tables.instances data.key).isSome)
    (quiet : ident ∉ failing) :
    unsubscribe failing tables ident = ⟨if (tables.subscriptions data.key).erase ident = ∅ then
        (removed tables ident data.key).setInstance data.key none
      else removed tables ident data.key, none⟩ := by
  obtain ⟨inst, stored⟩ := isSome_iff_exists.mp stored
  have present : ¬ ident ∉ (tables.popIdent ident).subscriptions data.key := not_not.mpr mem
  have running : ((tables.popIdent ident).setSubscriptions data.key
      (((tables.popIdent ident).subscriptions data.key).erase ident)).instances data.key =
      some inst := stored
  simp only [unsubscribe, found, if_neg quiet, if_neg present, running]
  split_ifs <;> simp_all [removed, popIdent]

theorem unsubscribe_unknown (unknown : ident ∉ Dict.keys tables.idents) :
    unsubscribe failing tables ident = ⟨tables, none⟩ := by
  rw [unsubscribe, lookup_eq_none.mpr unknown]

theorem unsubscribe_failing (known : ident ∈ Dict.keys tables.idents) (fails : ident ∈ failing) :
    unsubscribe failing tables ident = ⟨tables.popIdent ident, some .terminate⟩ := by
  obtain ⟨data, found⟩ := exists_lookup.mpr known
  simp only [unsubscribe, found, if_pos fails]

namespace Bookkept

theorem empty : Bookkept ({} : Tables App) := by
  refine ⟨?_, ?_, ?_⟩ <;> simp

variable (kept : Bookkept tables)
include kept

theorem set_unique {other : Key} (here : ident ∈ tables.subscriptions key)
    (there : ident ∈ tables.subscriptions other) : key = other := by
  obtain ⟨data, found, rfl⟩ := (kept.sets key ident).mp here
  obtain ⟨again, lookup, rfl⟩ := (kept.sets other ident).mp there
  rw [found] at lookup
  rw [Option.some.inj lookup]

theorem registered_iff :
    ident ∈ Dict.keys tables.idents ↔ ∃! key, ident ∈ tables.subscriptions key := by
  rw [← exists_lookup]
  constructor
  · rintro ⟨data, found⟩
    have mem := (kept.sets data.key ident).mpr ⟨data, found, rfl⟩
    exact ⟨data.key, mem, fun key there => kept.set_unique there mem⟩
  · rintro ⟨key, mem, -⟩
    obtain ⟨data, found, -⟩ := (kept.sets key ident).mp mem
    exact ⟨data, found⟩

theorem not_mem_of_unused (unused : ident ∉ Dict.keys tables.idents)
    (key : Key) : ident ∉ tables.subscriptions key := by
  intro mem
  obtain ⟨data, found, -⟩ := (kept.sets key ident).mp mem
  rw [lookup_eq_none.mpr unused] at found
  cases found

theorem subscriptions_of_no_instance (none : tables.instances key = none) :
    tables.subscriptions key = ∅ := by
  by_contra nonempty
  have stored := (kept.stored key).mpr (Finset.nonempty_iff_ne_empty.mpr nonempty)
  rw [none] at stored
  cases stored

theorem removed_sets (found : tables.idents.lookup ident = some data)
    (key : Key) (other : String) : other ∈ (removed tables ident data.key).subscriptions key ↔
      ∃ data, (tables.popIdent ident).idents.lookup other = some data ∧ data.key = key := by
  rw [lookup_popIdent, removed, setSubscriptions]
  by_cases same : other = ident
  · subst same
    by_cases here : key = data.key
    · simp [here]
    · simp only [update_of_ne here, if_true]
      refine iff_of_false ?_ (by simp)
      intro mem
      obtain ⟨again, lookup, rfl⟩ := (kept.sets key other).mp mem
      rw [found] at lookup
      exact here (congrArg IdentData.key (Option.some.inj lookup).symm)
  · rw [if_neg same, ← kept.sets key other]
    by_cases here : key = data.key
    · subst here
      simp [popIdent, same]
    · simp [update_of_ne here, popIdent]

theorem unsubscribe (quiet : ident ∉ failing) :
    ∃ next, EventSource.unsubscribe failing tables ident = ⟨next, none⟩ ∧ Bookkept next ∧
      next.idents = pop ident tables.idents := by
  cases found : tables.idents.lookup ident with
  | none =>
    have unknown := lookup_eq_none.mp found
    exact ⟨tables, unsubscribe_unknown unknown, kept, (pop_of_not_mem unknown).symm⟩
  | some data =>
    have mem := (kept.sets data.key ident).mpr ⟨data, found, rfl⟩
    have stored := (kept.stored data.key).mpr ⟨ident, mem⟩
    rw [unsubscribe_eq found mem stored quiet]
    have sets := kept.removed_sets found
    split_ifs with last
    · refine ⟨_, rfl, ⟨sets, ?_, ?_⟩, rfl⟩
      · intro key
        by_cases here : key = data.key
        · simp [here, setInstance, removed, setSubscriptions, last]
        · simpa [update_of_ne here, setInstance, removed,
            setSubscriptions, popIdent] using kept.stored key
      · intro key inst running
        by_cases here : key = data.key
        · simp [here, setInstance] at running
        · simp only [setInstance, update_of_ne here] at running
          exact kept.started key inst running
    · refine ⟨_, rfl, ⟨sets, ?_, kept.started⟩, rfl⟩
      intro key
      by_cases here : key = data.key
      · subst here
        have left := Finset.nonempty_iff_ne_empty.mpr last
        exact iff_of_true stored (by simpa [removed, setSubscriptions] using left)
      · simpa [update_of_ne here, removed, setSubscriptions, popIdent] using kept.stored key

theorem add (unused : ident ∉ Dict.keys tables.idents) :
    Bookkept ((addIdent tables ident data).setInstance data.key (some ⟨true⟩)) := by
  refine ⟨?_, ?_, ?_⟩
  · intro key other
    have lookup : ((addIdent tables ident data).setInstance data.key (some ⟨true⟩)).idents.lookup
        other = if other = ident then some data else tables.idents.lookup other :=
      lookup_set _ _ _ _
    rw [lookup]
    by_cases same : other = ident
    · subst same
      have outside := kept.not_mem_of_unused unused key
      by_cases here : key = data.key
      · simp [addIdent, setInstance, here]
      · simp [addIdent, setInstance, update_of_ne here, outside, Ne.symm here]
    · rw [if_neg same, ← kept.sets key other]
      by_cases here : key = data.key
      · simp [addIdent, setInstance, here, same]
      · simp [addIdent, setInstance, update_of_ne here]
  · intro key
    by_cases here : key = data.key
    · simp [addIdent, setInstance, here]
    · simpa [addIdent, setInstance, update_of_ne here] using kept.stored key
  · intro key inst running
    by_cases here : key = data.key
    · simp only [setInstance, here, update_self, Option.some.injEq] at running
      rw [← running]
    · simp only [setInstance, update_of_ne here] at running
      exact kept.started key inst running

end Bookkept

theorem unsubscribe_addIdent (unused : ident ∉ Dict.keys tables.idents)
    (alone : tables.subscriptions data.key = ∅) (quiet : ident ∉ failing)
    (idle : tables.instances data.key = none) :
    unsubscribe failing ((addIdent tables ident data).setInstance data.key (some ⟨false⟩)) ident =
      ⟨tables, none⟩ := by
  have found : ((addIdent tables ident data).setInstance data.key (some ⟨false⟩)).idents.lookup
      ident = some data := by
    rw [setInstance, addIdent, lookup_set, if_pos rfl]
  have set : (addIdent tables ident data).subscriptions data.key = {ident} := by
    simp [addIdent, alone]
  rw [unsubscribe_eq found (by simp [setInstance, set]) (by simp [setInstance]) quiet]
  have last : (((addIdent tables ident data).setInstance data.key (some ⟨false⟩)).subscriptions
      data.key).erase ident = ∅ := by
    simp [setInstance, set]
  rw [if_pos last, removed, last]
  obtain ⟨idents, subscriptions, instances⟩ := tables
  simp only [addIdent, setInstance, setSubscriptions, popIdent, update_idem] at alone idle ⊢
  rw [← alone, ← idle, update_eq_self, update_eq_self, pop_set_of_not_mem unused]

/-- The name is registered and its source either takes the argument or refuses it with
`ValidationErrors`, of which the subscriber can be told. -/
def Answers (sources : Sources Object) (ident : String) (data : IdentData App)
    (failing : List String) : Prop :=
  ∃ model ∈ sources.eventSources data.name, validateArg sources model data.arg = .valid ∨
      validateArg sources model data.arg = .invalid ∧ ident ∉ failing

/-- What a call has to meet in order not to raise half-way. -/
def Clean [DecidableEq App] (sources : Sources Object) (tables : Tables App) : Call App → Prop
  | .subscribe ident data failing =>
    ident ∈ Dict.keys tables.idents ∨ (tables.instances data.key).isSome ∨
      Answers sources ident data failing
  | .unsubscribe ident failing => ident ∈ Dict.keys tables.idents → ident ∉ failing
  | .unsubscribeAll key _ failing => ∀ ident ∈ tables.subscriptions key, ident ∉ failing
  | .unsubscribeApp app failing => ∀ ident ∈ identsOf tables app, ident ∉ failing

instance (sources : Sources Object) (ident : String) (data : IdentData App)
    (failing : List String) : Decidable (Answers sources ident data failing) := by
  unfold Answers
  infer_instance

instance [DecidableEq App] (sources : Sources Object) (tables : Tables App) :
    ∀ call : Call App, Decidable (Clean sources tables call)
  | .subscribe _ _ _ => inferInstanceAs (Decidable (_ ∨ _ ∨ _))
  | .unsubscribe _ _ => inferInstanceAs (Decidable (_ → _))
  | .unsubscribeAll _ _ _ => inferInstanceAs (Decidable (∀ _ ∈ _, _))
  | .unsubscribeApp _ _ => inferInstanceAs (Decidable (∀ _ ∈ _, _))

/-- A call leaves tables that agree, and where it raises it leaves the tables it found. -/
def Orderly (tables : Tables App) (outcome : Outcome App) : Prop :=
  Bookkept outcome.tables ∧ (outcome.raised.isSome → outcome.tables = tables)

variable {outcome : Outcome App}

theorem not_orderly (raised : outcome.raised.isSome)
    (changed : outcome.tables ≠ tables) : ¬ Orderly tables outcome := by
  intro orderly
  exact changed (orderly.2 raised)

theorem subscribe_orderly_iff (kept : Bookkept tables) :
    (ident ∈ Dict.keys tables.idents ∨ (tables.instances data.key).isSome ∨
      Answers sources ident data failing) ↔
      Orderly tables (subscribe sources failing tables ident data) := by
  by_cases used : ident ∈ Dict.keys tables.idents
  · refine iff_of_true (.inl used) ?_
    rw [subscribe, if_pos used]
    exact ⟨kept, fun _ => rfl⟩
  have changed : ∀ other : Tables App, ident ∈ other.subscriptions data.key → other ≠ tables := by
    rintro _ mem rfl
    exact kept.not_mem_of_unused used data.key mem
  have added : ident ∈ (addIdent tables ident data).subscriptions data.key := by
    simp [addIdent]
  have insts : (addIdent tables ident data).instances data.key = tables.instances data.key := rfl
  rw [subscribe, if_neg used]
  cases running : tables.instances data.key with
  | some inst =>
    refine iff_of_true (.inr (.inl rfl)) ?_
    simp only [insts, running]
    have started := kept.started data.key inst running
    have same : (addIdent tables ident data).setInstance data.key (some ⟨true⟩) =
        addIdent tables ident data := by
      rw [setInstance, ← started, ← running, ← insts, update_eq_self]
    exact ⟨same ▸ kept.add used, nofun⟩
  | none =>
    simp only [insts, running, used, isSome_none, Bool.false_eq_true, false_or]
    cases known : sources.eventSources data.name with
    | none =>
      refine iff_of_false ?_ (not_orderly rfl (changed _ added))
      rintro ⟨model, registered, -⟩
      rw [known] at registered
      cases registered
    | some model =>
      have answers : Answers sources ident data failing ↔
          validateArg sources model data.arg = .valid ∨
            validateArg sources model data.arg = .invalid ∧ ident ∉ failing := by
        simp [Answers, known]
      rw [answers]
      cases checked : validateArg sources model data.arg with
      | valid =>
        have again : ((addIdent tables ident data).setInstance data.key (some ⟨false⟩)).setInstance
            data.key (some ⟨true⟩) =
            (addIdent tables ident data).setInstance data.key (some ⟨true⟩) := by
          simp [setInstance]
        simp only [checked, again]
        exact iff_of_true (.inl trivial) ⟨kept.add used, nofun⟩
      | raises =>
        simp only [checked]
        exact iff_of_false (by simp) (not_orderly rfl (changed _ added))
      | invalid =>
        simp only [checked]
        by_cases fails : ident ∈ failing
        · have known : ident ∈ Dict.keys ((addIdent tables ident data).setInstance data.key
              (some ⟨false⟩)).idents := (mem_keys_set data).mpr (.inl rfl)
          rw [unsubscribe_failing known fails]
          exact iff_of_false (by simp [fails]) (not_orderly rfl (changed _ added))
        · rw [unsubscribe_addIdent used (kept.subscriptions_of_no_instance running) fails running]
          exact iff_of_true (.inr ⟨trivial, fails⟩) ⟨kept, nofun⟩

def HalfWay (tables : Tables App) (outcome : Outcome App) : Prop :=
  outcome.raised.isSome ∧ ∃ ident ∈ Dict.keys tables.idents, ident ∉ Dict.keys outcome.tables.idents

theorem HalfWay.not_orderly (halfWay : HalfWay tables outcome) : ¬ Orderly tables outcome := by
  obtain ⟨raised, ident, before, after⟩ := halfWay
  refine EventSource.not_orderly raised ?_
  rintro eq
  exact after (eq ▸ before)

theorem HalfWay.earlier {before : Tables App}
    (halfWay : HalfWay tables outcome)
    (fewer : Dict.keys tables.idents ⊆ Dict.keys before.idents) : HalfWay before outcome := by
  obtain ⟨raised, ident, inside, after⟩ := halfWay
  exact ⟨raised, ident, fewer inside, after⟩

theorem halfWay_popIdent (known : ident ∈ Dict.keys tables.idents) (error : Exception) :
    HalfWay tables ⟨tables.popIdent ident, some error⟩ :=
  ⟨rfl, ident, known, fun after => (mem_keys_popIdent.mp after).1 rfl⟩

theorem keys_popIdent_subset : Dict.keys (tables.popIdent ident).idents ⊆ Dict.keys tables.idents :=
  fun _ inside => (mem_keys_popIdent.mp inside).2

theorem unsubscribe_orderly_iff (kept : Bookkept tables) :
    (ident ∈ Dict.keys tables.idents → ident ∉ failing) ↔
      Orderly tables (unsubscribe failing tables ident) := by
  by_cases fails : ident ∈ failing
  · by_cases known : ident ∈ Dict.keys tables.idents
    · rw [unsubscribe_failing known fails]
      exact iff_of_false (fun quiet => quiet known fails) (halfWay_popIdent known _).not_orderly
    · rw [unsubscribe_unknown known]
      exact iff_of_true (fun mem => absurd mem known) ⟨kept, nofun⟩
  · obtain ⟨next, unsubscribed, nextKept, -⟩ := kept.unsubscribe fails
    rw [unsubscribed]
    exact iff_of_true (fun _ => fails) ⟨nextKept, nofun⟩

section Loops

variable {list : List String}

theorem unsubscribeEach_quiet (kept : Bookkept tables) (quiet : ∀ ident ∈ list, ident ∉ failing) :
    Orderly tables (unsubscribeEach failing tables list) := by
  suffices every : ∃ next, unsubscribeEach failing tables list = ⟨next, none⟩ ∧ Bookkept next by
    obtain ⟨next, returned, nextKept⟩ := every
    rw [returned]
    exact ⟨nextKept, nofun⟩
  induction list generalizing tables with
  | nil => exact ⟨tables, rfl, kept⟩
  | cons first rest ih =>
    obtain ⟨next, unsubscribed, nextKept, -⟩ := kept.unsubscribe (quiet first mem_cons_self)
    rw [unsubscribeEach, unsubscribed]
    exact ih nextKept fun ident mem => quiet ident (mem_cons_of_mem first mem)

theorem unsubscribeEach_failing (kept : Bookkept tables)
    (fails : ∃ ident ∈ list, ident ∈ Dict.keys tables.idents ∧ ident ∈ failing) :
    HalfWay tables (unsubscribeEach failing tables list) := by
  induction list generalizing tables with
  | nil => simp at fails
  | cons first rest ih =>
    by_cases here : first ∈ Dict.keys tables.idents ∧ first ∈ failing
    · rw [unsubscribeEach, unsubscribe_failing here.1 here.2]
      exact halfWay_popIdent here.1 _
    obtain ⟨ident, mem, known, failed⟩ := fails
    have different : ident ≠ first := by
      rintro rfl
      exact here ⟨known, failed⟩
    have later := (mem_cons.mp mem).resolve_left different
    rw [unsubscribeEach]
    by_cases quiet : first ∈ failing
    · have unknown : first ∉ Dict.keys tables.idents := fun known => here ⟨known, quiet⟩
      rw [unsubscribe_unknown unknown]
      exact ih kept ⟨ident, later, known, failed⟩
    · obtain ⟨next, unsubscribed, nextKept, idents⟩ := kept.unsubscribe quiet
      rw [unsubscribed]
      have keys : Dict.keys next.idents = Dict.keys (tables.popIdent first).idents :=
        congrArg Dict.keys idents
      have still : ident ∈ Dict.keys next.idents := keys ▸ mem_keys_popIdent.mpr ⟨different, known⟩
      exact (ih nextKept ⟨ident, later, still, failed⟩).earlier (keys ▸ keys_popIdent_subset)

theorem subset_popIdent (outside : ident ∉ list) (known : list ⊆ Dict.keys tables.idents) :
    list ⊆ Dict.keys (tables.popIdent ident).idents := by
  intro other inside
  refine mem_keys_popIdent.mpr ⟨?_, known inside⟩
  rintro rfl
  exact outside inside

theorem terminateEach_quiet (distinct : list.Nodup) (known : list ⊆ Dict.keys tables.idents)
    (quiet : ∀ ident ∈ list, ident ∉ failing) :
    ∃ next, terminateEach failing tables list = ⟨next, none⟩ ∧
      next.subscriptions = tables.subscriptions ∧ next.instances = tables.instances ∧
      ∀ ident, next.idents.lookup ident =
        if ident ∈ list then none else tables.idents.lookup ident := by
  induction list generalizing tables with
  | nil => exact ⟨tables, rfl, rfl, rfl, fun _ => rfl⟩
  | cons first rest ih =>
    have here := known mem_cons_self
    obtain ⟨outside, distinct⟩ := nodup_cons.mp distinct
    have others := subset_popIdent outside fun _ inside => known (mem_cons_of_mem first inside)
    obtain ⟨next, ended, subscriptions, instances, lookup⟩ := ih distinct others
      fun ident inside => quiet ident (mem_cons_of_mem first inside)
    refine ⟨next, ?_, subscriptions, instances, ?_⟩
    · simp only [terminateEach, not_not.mpr here, if_false, quiet first mem_cons_self, ended]
    · intro ident
      rw [lookup, lookup_popIdent]
      by_cases eq : ident = first <;> simp [eq]

theorem terminateEach_failing (distinct : list.Nodup) (known : list ⊆ Dict.keys tables.idents)
    (fails : ∃ ident ∈ list, ident ∈ failing) :
    HalfWay tables (terminateEach failing tables list) := by
  induction list generalizing tables with
  | nil => simp at fails
  | cons first rest ih =>
    have here := known mem_cons_self
    obtain ⟨outside, distinct⟩ := nodup_cons.mp distinct
    simp only [terminateEach, not_not.mpr here, if_false]
    split_ifs with failed
    · exact halfWay_popIdent here _
    · have others := subset_popIdent outside fun _ inside =>
        known (mem_cons_of_mem first inside)
      obtain ⟨ident, inside, failing⟩ := fails
      have later := (mem_cons.mp inside).resolve_left fun eq => failed (eq ▸ failing)
      exact (ih distinct others ⟨ident, later, failing⟩).earlier keys_popIdent_subset

end Loops

section Calls

variable (kept : Bookkept tables)
include kept

theorem Bookkept.clear {next : Tables App}
    (subscriptions : next.subscriptions = tables.subscriptions)
    (instances : next.instances = tables.instances)
    (lookup : ∀ ident, next.idents.lookup ident =
      if ident ∈ tables.subscriptions key then none else tables.idents.lookup ident) :
    Bookkept ((next.setInstance key none).setSubscriptions key ∅) := by
  refine ⟨?_, ?_, ?_⟩
  · intro other ident
    have found : ((next.setInstance key none).setSubscriptions key ∅).idents.lookup ident =
        if ident ∈ tables.subscriptions key then none else tables.idents.lookup ident :=
      lookup ident
    rw [found]
    by_cases gone : ident ∈ tables.subscriptions key
    · rw [if_pos gone]
      refine iff_of_false ?_ (by simp)
      intro mem
      by_cases here : other = key
      · simp [here, setSubscriptions] at mem
      · simp only [setSubscriptions, setInstance, update_of_ne here, subscriptions] at mem
        exact here (kept.set_unique mem gone)
    · rw [if_neg gone, ← kept.sets other ident]
      by_cases here : other = key
      · simp [here, setSubscriptions, gone]
      · simp [update_of_ne here, setSubscriptions, setInstance, subscriptions]
  · intro other
    by_cases here : other = key
    · simp [here, setInstance, setSubscriptions]
    · simpa [update_of_ne here, setInstance, setSubscriptions, subscriptions,
        instances] using kept.stored other
  · intro other inst running
    by_cases here : other = key
    · simp [here, setInstance, setSubscriptions] at running
    · simp only [setInstance, setSubscriptions, update_of_ne here, instances] at running
      exact kept.started other inst running

theorem unsubscribeAll_orderly_iff {order : List String} (distinct : order.Nodup)
    (all : order.toFinset = tables.subscriptions key) :
    (∀ ident ∈ tables.subscriptions key, ident ∉ failing) ↔
      Orderly tables (unsubscribeAll failing tables key order) := by
  have mem : ∀ ident, ident ∈ order ↔ ident ∈ tables.subscriptions key := by
    intro ident
    rw [← all, List.mem_toFinset]
  have known : order ⊆ Dict.keys tables.idents := by
    intro ident inside
    obtain ⟨data, found, -⟩ := (kept.sets key ident).mp ((mem ident).mp inside)
    exact exists_lookup.mp ⟨_, found⟩
  by_cases quiet : ∀ ident ∈ tables.subscriptions key, ident ∉ failing
  · obtain ⟨next, ended, subscriptions, instances, lookup⟩ := terminateEach_quiet distinct known
      fun ident inside => quiet ident ((mem ident).mp inside)
    simp only [mem] at lookup
    rw [unsubscribeAll, ended]
    exact iff_of_true quiet ⟨kept.clear subscriptions instances lookup, nofun⟩
  · refine iff_of_false quiet ?_
    push Not at quiet
    obtain ⟨ident, inside, fails⟩ := quiet
    have halfWay := terminateEach_failing distinct known ⟨ident, (mem ident).mpr inside, fails⟩
    have same : unsubscribeAll failing tables key order = terminateEach failing tables order := by
      rw [unsubscribeAll]
      split
      · rename_i ended
        rw [ended]
      · rename_i ended
        rw [ended] at halfWay
        cases halfWay.1
    rw [same]
    exact halfWay.not_orderly

variable [DecidableEq App]

theorem unsubscribeApp_orderly_iff {app : App} :
    (∀ ident ∈ identsOf tables app, ident ∉ failing) ↔
      Orderly tables (unsubscribeApp failing tables app) := by
  by_cases quiet : ∀ ident ∈ identsOf tables app, ident ∉ failing
  · exact iff_of_true quiet (unsubscribeEach_quiet kept quiet)
  · refine iff_of_false quiet ?_
    push Not at quiet
    obtain ⟨ident, inside, fails⟩ := quiet
    have known : ident ∈ Dict.keys tables.idents := by
      obtain ⟨entry, mem, rfl⟩ := mem_map.mp inside
      exact mem_map_of_mem (mem_filter.mp mem).1
    exact (unsubscribeEach_failing kept ⟨ident, inside, known, fails⟩).not_orderly

theorem clean_iff_orderly {call : Call App} (possible : Possible tables call) :
    Clean sources tables call ↔ Orderly tables (perform sources tables call) := by
  cases call with
  | subscribe ident data failing => exact subscribe_orderly_iff kept
  | unsubscribe ident failing => exact unsubscribe_orderly_iff kept
  | unsubscribeAll key order failing =>
    exact unsubscribeAll_orderly_iff kept possible.1 possible.2
  | unsubscribeApp app failing => exact unsubscribeApp_orderly_iff kept

theorem Bookkept.step {call : Call App} {next : Tables App}
    (clean : Clean sources tables call) (taken : step sources tables call = some next) :
    Bookkept next := by
  rw [EventSource.step] at taken
  split_ifs at taken with possible
  cases taken
  exact ((clean_iff_orderly kept possible).mp clean).1

omit kept

/-- After any sequence of calls that meet the condition the tables agree, and the next call leaves
tables that agree, or the same tables where it raises, exactly when it meets the condition too. -/
theorem tables_agree_iff (reached : Reach (EventSource.step sources) (Clean sources) {} tables) :
    Bookkept tables ∧
      (∀ ident, ident ∈ Dict.keys tables.idents ↔ ∃! key, ident ∈ tables.subscriptions key) ∧
      ∀ call, Possible tables call →
        (Clean sources tables call ↔ Orderly tables (perform sources tables call)) := by
  have kept : Bookkept tables := reached.invariant .empty
    fun _ _ _ kept clean stepped => kept.step clean stepped
  exact ⟨kept, fun _ => kept.registered_iff, fun _ possible => clean_iff_orderly kept possible⟩

end Calls

/-- One event source, which takes any object; the text `5` is JSON but no object. -/
def realtime : Sources Unit where
  loads text := if text = "5" then .other else if text = "\x7b" then .invalid else .object ()
  noFields := ()
  eventSources name := if name = "reporting.realtime" then some fun _ => .valid else none

def viewer (arg : Option String) : IdentData Unit := ⟨.app (), "reporting.realtime", arg⟩

/-- Two viewers share an instance, a third one's argument is refused, and the first one leaves. -/
def viewing : List (Call Unit) :=
  [.subscribe "one" (viewer none) [], .subscribe "two" (viewer none) [],
    .subscribe "three" (viewer (some "\x7b")) [], .unsubscribe "one" []]

theorem tables_agree_viewing : ∃ tables : Tables Unit,
    Reach (step realtime) (Clean realtime) {} tables ∧
      Dict.keys tables.idents = ["two"] ∧ Bookkept tables := by
  exact exists_reach_of_run (P := fun tables => Dict.keys tables.idents = ["two"]) viewing
    (by decide) fun tables reached idents => ⟨idents, (tables_agree_iff reached).1⟩

/-- A name that is not registered and an argument that is JSON but no object make `subscribe`
raise after it has written its tables: an ident without an instance, and one whose instance has
not been started. -/
theorem subscribe_raises_halfway :
    let unknown := perform realtime {} (.subscribe "one" ⟨.app (), "reporting.other", none⟩ [])
    let number := perform realtime {} (.subscribe "one" (viewer (some "5")) [])
    (unknown.raised = some .keyError ∧
      unknown.tables.subscriptions ("reporting.other", none) = {"one"} ∧
      unknown.tables.instances ("reporting.other", none) = none) ∧
    number.raised = some .validation ∧
      number.tables.subscriptions (viewer (some "5")).key = {"one"} ∧
      number.tables.instances (viewer (some "5")).key = some ⟨false⟩ := by
  decide

end TruenasMiddleware.EventSource
