import TruenasMiddleware.Foundation.Dict

/-! `insert` and `update` of `plugins/datastore/write.py`. The connection is in AUTOCOMMIT mode:
each statement is applied as a whole or raises, and stays when a later one raises. A database is
the table of the call, the secondary tables of its relationships, and the rest, which these calls
do not write. Constraints of the table and of the rest are given; the secondary tables have two
foreign keys, both NOT NULL and with ON DELETE CASCADE. All keys are AUTOINCREMENT. -/

namespace TruenasMiddleware.Datastore

inductive Value
  | null
  | integer (number : Int)
  | text (characters : String)
deriving DecidableEq

inductive Datum
  | scalar (value : Value)
  | list (values : List Value)
deriving DecidableEq

/-- `for value in values`; `none` where that raises `TypeError`. -/
def Datum.iterate : Datum → Option (List Value)
  | .list values => some values
  | .scalar (.text characters) =>
    some (characters.toList.map fun character => .text (String.singleton character))
  | .scalar _ => none

structure Column where
  name : String
  default : Option Datum := none
  nullable : Bool := true
  isText : Bool := false
  hasForeignKey : Bool := false

structure Table where
  columns : List Column
  pk : String
  integerPk : Bool
  relationships : List String

/-- What a call gives, under the names of columns or of relationships. -/
abbrev Data := List (String × Datum)

abbrev Row := String → Datum

structure Link where
  id : Nat
  localPk : Datum
  remotePk : Value

/-- `lastRowid` and `lastLinkId` are the entries of `sqlite_sequence` for the table and for the
secondary table of a relationship. -/
structure Database (Rest : Type) where
  rows : List Row
  links : String → List Link
  rest : Rest
  lastRowid : Int := 0
  lastLinkId : String → Nat := fun _ => 0

/-- Every table has the same contents. -/
structure Database.Same {Rest : Type} (database other : Database Rest) : Prop where
  rows : database.rows = other.rows
  links : database.links = other.links
  rest : database.rest = other.rest

structure Constraints (Rest : Type) where
  /-- The constraints on the rows of the table, its primary key apart. -/
  accepts : List Row → Rest → Bool
  /-- There is a row with this key in the remote table of a relationship. -/
  remoteExists : Rest → String → Value → Bool

inductive Error
  | keyError (name : String)
  | runtimeError (message : String)
  | integrityError
  | noRowsWereUpdated
  | typeError
  | eventError

structure DatastoreOptions where
  namePrefix : String := ""
  sendEvents : Bool := true

variable (table : Table)

def Table.pks (rows : List Row) : List Datum := rows.map fun row => row table.pk

section Schema

def getColByDjangoName (name : String) : Option String :=
  if name ∈ table.columns.map Column.name then some name
  else if name ++ "_id" ∈ table.columns.map Column.name then some (name ++ "_id")
  else none

def getCol (name namePrefix : String) : Except Error String :=
  match getColByDjangoName table name with
  | some column => .ok column
  | none =>
    if namePrefix = "" then .error (.keyError name)
    else
      match getColByDjangoName table (namePrefix ++ name) with
      | some column => .ok column
      | none => .error (.keyError name)

def extractRelationships (table : Table) (namePrefix : String) : Data → Except Error (Data × Data)
  | [] => .ok ([], [])
  | (key, datum) :: data =>
    if namePrefix ++ key ∈ table.relationships then
      (extractRelationships table namePrefix data).map fun (values, relationships) =>
        (values, (namePrefix ++ key, datum) :: relationships)
    else
      match getCol table key namePrefix with
      | .error error => .error error
      | .ok column =>
        (extractRelationships table namePrefix data).map fun (values, relationships) =>
          -- A later key for the same column has the last word.
          (if column ∈ Dict.keys values then values else (column, datum) :: values, relationships)

def setDefault (values : Data) (name : String) (datum : Datum) : Data :=
  if name ∈ Dict.keys values then values else Dict.set name datum values

def setDefaults (values : Data) : Data :=
  table.columns.foldl (fun values column =>
    let values := column.default.elim values (setDefault values column.name)
    if !column.nullable && column.isText then
      setDefault values column.name (.scalar (.text ""))
    else values) values

/-- `data[column.name] = data.pop(column.name[:-3])` for the foreign keys. -/
def renameForeignKeys (data : Data) : Data :=
  table.columns.foldl (fun data column =>
    let short := String.ofList (column.name.toList.take (column.name.toList.length - 3))
    match column.hasForeignKey, data.lookup short with
    | true, some datum => Dict.set column.name datum (Dict.pop short data)
    | _, _ => data) data

end Schema

section Statements

variable {Rest : Type} (constraints : Constraints Rest) (table : Table)

def rowid (table : Table) (last : Int) (row : Row) : Int :=
  match row table.pk with
  | .scalar (.integer number) => max last number
  | _ => last

def nextRowid (table : Table) (database : Database Rest) : Int :=
  database.rows.foldl (rowid table) database.lastRowid + 1

def accepted (rows : List Row) (rest : Rest) : Bool :=
  constraints.accepts rows rest && decide (table.pks rows).Nodup &&
    decide (.scalar .null ∉ table.pks rows)

variable (database : Database Rest)

/-- The row that the given values are stored as: an integer key that is left out or NULL is the
next one. -/
def storedRow (values : Data) : Row := fun name =>
  let given := (values.lookup name).getD (.scalar .null)
  if name = table.pk ∧ table.integerPk = true ∧ given = .scalar .null then
    .scalar (.integer (nextRowid table database))
  else given

def executeInsert (values : Data) : Option (Database Rest) :=
  let row := storedRow table database values
  let rows := database.rows ++ [row]
  if accepted constraints table rows database.rest then
    some { database with rows := rows, lastRowid := rowid table database.lastRowid row }
  else none

def setValues (values : Data) (row : Row) : Row := fun name => (values.lookup name).getD (row name)

def updatedRows (rows : List Row) (pk : Datum) (values : Data) : List Row :=
  rows.map fun row => if row table.pk = pk then setValues values row else row

def linked (rows : List Row) (links : String → List Link) : Bool :=
  table.relationships.all fun name => (links name).all fun link =>
    decide (link.localPk ∈ table.pks rows)

def executeUpdate (pk : Datum) (values : Data) : Option (Database Rest × Nat) :=
  let rows := updatedRows table database.rows pk values
  if accepted constraints table rows database.rest && linked table rows database.links then
    some ({ database with rows := rows }, (table.pks database.rows).count pk)
  else none

def unlink (links : List Link) (pk : Datum) : List Link :=
  links.filter fun link => decide (link.localPk ≠ pk)

/-- `DELETE` from the table by primary key; the links go with the row. -/
def executeDelete (pk : Datum) : Database Rest :=
  { database with
    rows := database.rows.filter fun row => decide (row table.pk ≠ pk)
    links := fun name =>
      if pk ∈ table.pks database.rows ∧ name ∈ table.relationships then
        unlink (database.links name) pk
      else database.links name }

def Database.setLinks (name : String) (links : List Link) : Database Rest :=
  { database with links := fun other => if other = name then links else database.links other }

def nextLinkId (last : Nat) (links : List Link) : Nat :=
  links.foldl (fun last link => max last link.id) last + 1

def addLink (name : String) (pk : Datum) (database : Database Rest) (value : Value) :
    Database Rest :=
  let id := nextLinkId (database.lastLinkId name) (database.links name)
  { database.setLinks name (database.links name ++ [⟨id, pk, value⟩]) with
    lastLinkId := fun other => if other = name then id else database.lastLinkId other }

def linkable (rows : List Row) (rest : Rest) (name : String) (pk : Datum) (value : Value) : Bool :=
  decide (pk ∈ table.pks rows ∧ value ≠ .null) && constraints.remoteExists rest name value

end Statements

section Calls

variable {Rest : Type} (constraints : Constraints Rest) (table : Table)

def insertLinks (database : Database Rest) (name : String) (pk : Datum) :
    List Value → Database Rest × Option Error
  | [] => (database, none)
  | value :: values =>
    if linkable constraints table database.rows database.rest name pk value then
      insertLinks (addLink name pk database value) name pk values
    else (database, some .integrityError)

def handleRelationships (database : Database Rest) (pk : Datum) :
    Data → Database Rest × Option Error
  | [] => (database, none)
  | (name, datum) :: relationships =>
    let database := database.setLinks name (unlink (database.links name) pk)
    match datum.iterate with
    | none => (database, some .typeError)
    | some values =>
      match insertLinks constraints table database name pk values with
      | (database, some error) => (database, some error)
      | (database, none) => handleRelationships database pk relationships

variable (database : Database Rest)

/-- The primary key that `insert` goes on with: the rowid when none was given. -/
def insertedPk (values : Data) : Except Error Datum :=
  match values.lookup table.pk with
  | some pk => .ok pk
  | none =>
    if table.integerPk then .ok (.scalar (.integer (nextRowid table database)))
    else .error (.keyError table.pk)

/-- `eventsRaise` says whether sending the events raises. -/
def insert (data : Data) (options : DatastoreOptions)
    (eventsRaise : Bool) : Database Rest × Except Error Datum :=
  match extractRelationships table options.namePrefix data with
  | .error error => (database, .error error)
  | .ok (values, relationships) =>
    let values := setDefaults table values
    match executeInsert constraints table database values with
    | none => (database, .error .integrityError)
    | some inserted =>
      match insertedPk table database values with
      | .error error => (inserted, .error error)
      | .ok pk =>
        match handleRelationships constraints table inserted pk relationships with
        -- the `except` clause
        | (written, some error) => (executeDelete table written pk, .error error)
        | (written, none) =>
          if options.sendEvents && eventsRaise then (written, .error .eventError)
          else (written, .ok pk)

inductive Target
  | id (pk : Datum)
  | filters (found : List Datum)

def Target.resolve : Target → Except Error Datum
  | .id pk => .ok pk
  | .filters [pk] => .ok pk
  | .filters found => .error (.runtimeError (toString found.length ++ " found, expecting one"))

def finishUpdate (pk : Datum) (relationships : Data) : Database Rest × Except Error Datum :=
  match handleRelationships constraints table database pk relationships with
  | (written, some error) => (written, .error error)
  | (written, none) => (written, .ok pk)

def update (target : Target) (data : Data)
    (options : DatastoreOptions) (eventsRaise : Bool) : Database Rest × Except Error Datum :=
  match target.resolve with
  | .error error => (database, .error error)
  | .ok pk =>
    match extractRelationships table options.namePrefix (renameForeignKeys table data) with
    | .error error => (database, .error error)
    | .ok (values, relationships) =>
      if values = [] then finishUpdate constraints table database pk relationships
      else
        match executeUpdate constraints table database pk values with
        | none => (database, .error .integrityError)
        | some (written, rowcount) =>
          if rowcount ≠ 1 then (written, .error .noRowsWereUpdated)
          else if options.sendEvents && eventsRaise then (written, .error .eventError)
          else finishUpdate constraints table written pk relationships

end Calls

end TruenasMiddleware.Datastore
