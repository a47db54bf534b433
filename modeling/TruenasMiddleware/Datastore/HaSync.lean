import TruenasMiddleware.Datastore.Atomicity

/-! The statements that `insert` and `update` execute, each with the `ha_sync` option under which
`execute_write` passes it on to the replication hook. The statements of `_handle_relationships` are
executed without options. -/

namespace TruenasMiddleware.Datastore

inductive Statement
  | insert (values : Data)
  | update (pk : Datum) (values : Data)
  | delete (pk : Datum)
  | deleteLinks (name : String) (pk : Datum)
  | insertLink (name : String) (pk : Datum) (value : Value)

structure Executed where
  statement : Statement
  haSync : Bool

def executeWrite (statement : Statement) (haSync : Option Bool := none) : Executed :=
  ⟨statement, haSync.getD true⟩

variable {Rest : Type} (constraints : Constraints Rest) (table : Table)

section Traces

def insertLinksTrace (database : Database Rest) (name : String) (pk : Datum) :
    List Value → List Executed
  | [] => []
  | value :: values =>
    if linkable constraints table database.rows database.rest name pk value then
      executeWrite (.insertLink name pk value) ::
        insertLinksTrace (addLink name pk database value) name pk values
    else []

def handleRelationshipsTrace (database : Database Rest) (pk : Datum) : Data → List Executed
  | [] => []
  | (name, datum) :: relationships =>
    let database := database.setLinks name (unlink (database.links name) pk)
    executeWrite (.deleteLinks name pk) :: match datum.iterate with
      | none => []
      | some values =>
        insertLinksTrace constraints table database name pk values ++
          match insertLinks constraints table database name pk values with
          | (_, some _) => []
          | (database, none) => handleRelationshipsTrace database pk relationships

/-- The `except` clause, for what the relationships ended with. -/
def exceptTrace (pk : Datum) (haSync : Bool) : Option Error → List Executed
  | some _ => [executeWrite (.delete pk) (some haSync)]
  | none => []

def insertTrace (database : Database Rest) (data : Data) (options : DatastoreOptions)
    (haSync : Bool) : List Executed :=
  match extractRelationships table options.namePrefix data with
  | .error _ => []
  | .ok (values, relationships) =>
    let values := setDefaults table values
    match executeInsert constraints table database values with
    | none => []
    | some inserted =>
      executeWrite (.insert values) (some haSync) ::
        match insertedPk table database values with
        | .error _ => []
        | .ok pk =>
          handleRelationshipsTrace constraints table inserted pk relationships ++
            exceptTrace pk haSync
              (handleRelationships constraints table inserted pk relationships).2

def updateTrace (database : Database Rest) (target : Target) (data : Data)
    (options : DatastoreOptions) (eventsRaise haSync : Bool) : List Executed :=
  match target.resolve with
  | .error _ => []
  | .ok pk =>
    match extractRelationships table options.namePrefix (renameForeignKeys table data) with
    | .error _ => []
    | .ok (values, relationships) =>
      if values = [] then handleRelationshipsTrace constraints table database pk relationships
      else
        match executeUpdate constraints table database pk values with
        | none => []
        | some (written, rowcount) =>
          executeWrite (.update pk values) (some haSync) :: if rowcount ≠ 1 then []
            else if options.sendEvents && eventsRaise then []
            else handleRelationshipsTrace constraints table written pk relationships

end Traces

section Uniform

def Uniform (haSync : Bool) (trace : List Executed) : Prop :=
  ∀ executed ∈ trace, executed.haSync = haSync

def Statement.ofRelationship : Statement → Bool
  | .deleteLinks _ _ => true
  | .insertLink _ _ _ => true
  | _ => false

/-- The caller's option reaches the statements on the table; the others are passed on always. -/
def Passed (haSync : Bool) (trace : List Executed) : Prop :=
  ∀ executed ∈ trace, executed.haSync = (haSync || executed.statement.ofRelationship)

variable {haSync : Bool} (database : Database Rest)

@[simp]
theorem passed_nil : Passed haSync [] := fun _ mem => absurd mem List.not_mem_nil

variable {trace first rest : List Executed}

@[simp]
theorem passed_cons {executed : Executed} :
    Passed haSync (executed :: trace) ↔
      executed.haSync = (haSync || executed.statement.ofRelationship) ∧ Passed haSync trace :=
  List.forall_mem_cons

@[simp]
theorem passed_append :
    Passed haSync (first ++ rest) ↔ Passed haSync first ∧ Passed haSync rest :=
  List.forall_mem_append

theorem passed_insertLinksTrace (name : String) (pk : Datum) (values : List Value) :
    Passed haSync (insertLinksTrace constraints table database name pk values) := by
  induction values generalizing database with
  | nil => exact passed_nil
  | cons value values ih =>
    rw [insertLinksTrace]
    split
    · exact passed_cons.mpr ⟨(Bool.or_true _).symm, ih _⟩
    · exact passed_nil

theorem passed_handleRelationshipsTrace (pk : Datum) (relationships : Data) :
    Passed haSync (handleRelationshipsTrace constraints table database pk relationships) := by
  induction relationships generalizing database with
  | nil => exact passed_nil
  | cons relationship relationships ih =>
    obtain ⟨name, datum⟩ := relationship
    rw [handleRelationshipsTrace]
    refine passed_cons.mpr ⟨(Bool.or_true _).symm, ?_⟩
    cases datum.iterate with
    | none => exact passed_nil
    | some values =>
      refine passed_append.mpr ⟨passed_insertLinksTrace constraints table _ name pk values, ?_⟩
      split
      · exact passed_nil
      · exact ih _

theorem passed_exceptTrace (pk : Datum) (error : Option Error) :
    Passed haSync (exceptTrace pk haSync error) := by
  cases error <;> simp [exceptTrace, executeWrite, Statement.ofRelationship]

theorem passed_insertTrace (data : Data) (options : DatastoreOptions) :
    Passed haSync (insertTrace constraints table database data options haSync) := by
  rw [insertTrace]
  split
  · exact passed_nil
  · dsimp only
    split
    · exact passed_nil
    · refine passed_cons.mpr ⟨(Bool.or_false _).symm, ?_⟩
      split
      · exact passed_nil
      · exact passed_append.mpr ⟨passed_handleRelationshipsTrace constraints table _ _ _,
          passed_exceptTrace _ _⟩

theorem passed_updateTrace (target : Target) (data : Data) (options : DatastoreOptions)
    (eventsRaise : Bool) :
    Passed haSync
      (updateTrace constraints table database target data options eventsRaise haSync) := by
  rw [updateTrace]
  split
  · exact passed_nil
  · split
    · exact passed_nil
    · split
      · exact passed_handleRelationshipsTrace constraints table database _ _
      · split
        · exact passed_nil
        · refine passed_cons.mpr ⟨(Bool.or_false _).symm, ?_⟩
          split_ifs
          · exact passed_nil
          · exact passed_nil
          · exact passed_handleRelationshipsTrace constraints table _ _ _

section Related

def Related (trace : List Executed) : Prop :=
  ∃ executed ∈ trace, executed.statement.ofRelationship = true

theorem uniform_iff (passed : Passed haSync trace) :
    Uniform haSync trace ↔ haSync = true ∨ ¬ Related trace := by
  cases haSync with
  | true => exact iff_of_true passed (Or.inl rfl)
  | false =>
    rw [or_iff_right Bool.false_ne_true, Related]
    push Not
    refine forall₂_congr fun executed mem => ?_
    rw [passed executed mem, Bool.false_or, ne_eq, Bool.not_eq_true]

@[simp]
theorem related_nil : ¬ Related [] := fun ⟨_, mem, _⟩ => absurd mem List.not_mem_nil

@[simp]
theorem related_cons {executed : Executed} :
    Related (executed :: trace) ↔
      executed.statement.ofRelationship = true ∨ Related trace := by
  simp only [Related, List.mem_cons, or_and_right, exists_or, exists_eq_left]

@[simp]
theorem related_append : Related (first ++ rest) ↔ Related first ∨ Related rest := by
  simp only [Related, List.mem_append, or_and_right, exists_or]

variable {constraints table database} {pk : Datum} {relationships : Data}

@[simp]
theorem related_handleRelationshipsTrace :
    Related (handleRelationshipsTrace constraints table database pk relationships) ↔
      relationships ≠ [] := by
  cases relationships <;> simp [handleRelationshipsTrace, executeWrite, Statement.ofRelationship]

@[simp]
theorem related_exceptTrace (error : Option Error) : ¬ Related (exceptTrace pk haSync error) := by
  cases error <;> simp [exceptTrace, executeWrite, Statement.ofRelationship]

/-- The columns resolve, the row is inserted, and there is a relationship to write. -/
def InsertRelates (constraints : Constraints Rest) (table : Table) (database : Database Rest)
    (data : Data) (options : DatastoreOptions) : Prop :=
  ∃ values relationships,
    extractRelationships table options.namePrefix data = .ok (values, relationships) ∧
    (executeInsert constraints table database (setDefaults table values)).isSome = true ∧
    relationships ≠ []

/-- The columns resolve, the statement for them, if there are any, finds one row and its events
are sent, and there is a relationship to write. -/
def UpdateRelates (constraints : Constraints Rest) (table : Table) (database : Database Rest)
    (target : Target) (data : Data) (options : DatastoreOptions) (eventsRaise : Bool) : Prop :=
  ∃ pk values relationships, target.resolve = .ok pk ∧
    extractRelationships table options.namePrefix (renameForeignKeys table data) =
      .ok (values, relationships) ∧
    (values = [] ∨
      (∃ written, executeUpdate constraints table database pk values = some (written, 1)) ∧
        (options.sendEvents && eventsRaise) = false) ∧
    relationships ≠ []

theorem related_insertTrace (data : Data) (options : DatastoreOptions) :
    Related (insertTrace constraints table database data options haSync) ↔
      InsertRelates constraints table database data options := by
  rw [insertTrace, InsertRelates]
  cases extracted : extractRelationships table options.namePrefix data with
  | error error => simp
  | ok prepared =>
    obtain ⟨values, relationships⟩ := prepared
    cases run : executeInsert constraints table database (setDefaults table values) with
    | none => simp [run]
    | some inserted =>
      obtain ⟨pk, key⟩ := insertedPk_isOk run
      simp [key, run, executeWrite, Statement.ofRelationship]

theorem related_updateTrace (target : Target) (data : Data) (options : DatastoreOptions)
    (eventsRaise : Bool) :
    Related (updateTrace constraints table database target data options eventsRaise haSync) ↔
      UpdateRelates constraints table database target data options eventsRaise := by
  rw [updateTrace, UpdateRelates]
  cases resolved : target.resolve with
  | error error => simp
  | ok pk =>
    cases extracted : extractRelationships table options.namePrefix
        (renameForeignKeys table data) with
    | error error => simp
    | ok prepared =>
      obtain ⟨values, relationships⟩ := prepared
      by_cases none_ : values = []
      · simp [none_]
      · cases run : executeUpdate constraints table database pk values with
        | none => simp [none_, run]
        | some result =>
          by_cases one : result.2 = 1
          · cases options.sendEvents && eventsRaise <;>
              simp [none_, run, one, executeWrite, Statement.ofRelationship, Prod.ext_iff]
          · simp [none_, run, one, executeWrite, Statement.ofRelationship, Prod.ext_iff]

end Related

/-- Every statement of a call is passed on exactly as the caller's option says if and only if that
option is true or the call does not come to write a relationship. -/
theorem ha_sync_covers_iff (database : Database Rest) (target : Target) (data : Data)
    (options : DatastoreOptions) (eventsRaise haSync : Bool) :
    (Uniform haSync (insertTrace constraints table database data options haSync) ↔
      haSync = true ∨ ¬ InsertRelates constraints table database data options) ∧
    (Uniform haSync
        (updateTrace constraints table database target data options eventsRaise haSync) ↔
      haSync = true ∨
        ¬ UpdateRelates constraints table database target data options eventsRaise) := by
  rw [← related_insertTrace, ← related_updateTrace]
  exact ⟨uniform_iff (passed_insertTrace constraints table database data options),
    uniform_iff (passed_updateTrace constraints table database target data options eventsRaise)⟩

theorem groups_passed_on :
    ¬ Uniform false (updateTrace groups users oneUser user [("groups", .list [.integer 10])]
      userOptions false false) := by
  intro uniform
  have first := uniform (executeWrite (.deleteLinks "bsdusr_groups" (.scalar (.integer 1))))
    List.mem_cons_self
  cases first

end Uniform

end TruenasMiddleware.Datastore
