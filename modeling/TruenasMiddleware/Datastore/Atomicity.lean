import TruenasMiddleware.Datastore.Write

/-! When a call of `datastore.insert` or `datastore.update` that raises leaves every table as it
was. The relationships are written one after the other up to the first value that is rejected;
`insert` then deletes its row, `update` leaves what it has written. -/

namespace TruenasMiddleware.Datastore

open List Dict

@[simp]
theorem Database.Same.refl {Rest : Type} (database : Database Rest) : database.Same database :=
  ⟨rfl, rfl, rfl⟩

section Relationships

variable {Rest : Type} (constraints : Constraints Rest) (table : Table)

def acceptedValues (rows : List Row) (rest : Rest) (pk : Datum) (relationship : String × Datum) :
    List Value :=
  (relationship.2.iterate.getD []).takeWhile
    (linkable constraints table rows rest relationship.1 pk)

def rejected (rows : List Row) (rest : Rest) (pk : Datum) (relationship : String × Datum) : Bool :=
  !(relationship.2.iterate.any fun values =>
    values.all (linkable constraints table rows rest relationship.1 pk))

def reached (rows : List Row) (rest : Rest) (pk : Datum) : Data → Data
  | [] => []
  | relationship :: relationships =>
    if rejected constraints table rows rest pk relationship then [relationship]
    else relationship :: reached rows rest pk relationships

section Links

structure Added (database : Database Rest) (name : String) (pk : Datum) (values : List Value)
    (result : Database Rest) : Prop where
  rows : result.rows = database.rows
  rest : result.rest = database.rest
  others : ∀ other, other ≠ name → result.links other = database.links other ∧
    result.lastLinkId other = database.lastLinkId other
  /-- The new links have new ids, whatever links have been deleted. -/
  links : ∃ added, result.links name = database.links name ++ added ∧
    (∀ link ∈ added, link.localPk = pk ∧ database.lastLinkId name < link.id) ∧
    (added = [] ↔ values = [])

variable (name : String) (pk : Datum) (database : Database Rest) (values : List Value)

theorem lt_nextLinkId (last : Nat) (links : List Link) : last < nextLinkId last links := by
  rw [nextLinkId, Nat.lt_succ_iff]
  induction links generalizing last with
  | nil => exact Nat.le_refl _
  | cons link links ih => exact Nat.le_trans (Nat.le_max_left _ _) (ih _)

theorem foldl_addLink :
    Added database name pk values (values.foldl (addLink name pk) database) := by
  induction values generalizing database with
  | nil => exact ⟨rfl, rfl, fun _ _ => ⟨rfl, rfl⟩, [], by simp⟩
  | cons value values ih =>
    obtain ⟨rows, rest, others, added, eq, each, -⟩ := ih (addLink name pk database value)
    have later := lt_nextLinkId (database.lastLinkId name) (database.links name)
    refine ⟨rows, rest, fun other differ => ?_,
      ⟨nextLinkId (database.lastLinkId name) (database.links name), pk, value⟩ :: added,
      ?_, ?_, by simp⟩
    · rw [foldl_cons, (others other differ).1, (others other differ).2]
      exact ⟨if_neg differ, if_neg differ⟩
    · rw [foldl_cons, eq]
      simp [addLink, Database.setLinks]
    · refine forall_mem_cons.2 ⟨⟨rfl, later⟩, fun link mem => ⟨(each link mem).1, ?_⟩⟩
      have new := (each link mem).2
      simp only [addLink, if_true] at new
      exact Nat.lt_trans later new

theorem insertLinks_eq :
    insertLinks constraints table database name pk values =
      ((values.takeWhile (linkable constraints table database.rows database.rest name pk)).foldl
          (addLink name pk) database,
        if values.all (linkable constraints table database.rows database.rest name pk) then none
        else some .integrityError) := by
  induction values generalizing database with
  | nil => rfl
  | cons value values ih =>
    by_cases ok : linkable constraints table database.rows database.rest name pk value = true
    · rw [insertLinks, if_pos ok, ih, takeWhile_cons_of_pos ok, foldl_cons, all_cons, ok,
        Bool.true_and]
      rfl
    · rw [insertLinks, if_neg ok, takeWhile_cons_of_neg ok, foldl_nil,
        if_neg fun all => ok (all_eq_true.1 all value mem_cons_self)]

variable {pk}

theorem unlink_append_eq_iff {last : Nat} {links added : List Link}
    (bounded : ∀ link ∈ links, link.id ≤ last)
    (new : ∀ link ∈ added, link.localPk = pk ∧ last < link.id) :
    unlink links pk ++ added = links ↔ (∀ link ∈ links, link.localPk ≠ pk) ∧ added = [] := by
  constructor
  · intro eq
    have none_ : added = [] := eq_nil_iff_forall_not_mem.2 fun link mem =>
      Nat.not_lt.2 (bounded link (eq ▸ mem_append_right _ mem)) (new link mem).2
    rw [none_, append_nil, unlink, filter_eq_self] at eq
    exact ⟨fun link mem => of_decide_eq_true (eq link mem), none_⟩
  · rintro ⟨unlinked, rfl⟩
    rw [append_nil, unlink, filter_eq_self]
    exact fun link mem => decide_eq_true (unlinked link mem)

end Links

structure Written (database : Database Rest) (pk : Datum) (relationships : Data)
    (result : Database Rest × Option Error) : Prop where
  rows : result.1.rows = database.rows
  rest : result.1.rest = database.rest
  raised : result.2.isSome =
    relationships.any (rejected constraints table database.rows database.rest pk)
  links : ∀ relationship ∈ reached constraints table database.rows database.rest pk relationships,
    ∃ added, result.1.links relationship.1 = unlink (database.links relationship.1) pk ++ added ∧
      (∀ link ∈ added, link.localPk = pk ∧ database.lastLinkId relationship.1 < link.id) ∧
      (added = [] ↔
        acceptedValues constraints table database.rows database.rest pk relationship = [])
  others : ∀ name,
    name ∉ Dict.keys (reached constraints table database.rows database.rest pk relationships) →
      result.1.links name = database.links name

variable {constraints table}

theorem reached_subset (rows : List Row) (rest : Rest) (pk : Datum) (relationships : Data) :
    reached constraints table rows rest pk relationships ⊆ relationships := by
  induction relationships with
  | nil => exact fun _ inside => inside
  | cons relationship relationships ih =>
    rw [reached]
    split_ifs
    · exact cons_subset_cons _ (nil_subset _)
    · exact cons_subset_cons _ ih

variable (constraints table) (database : Database Rest) (pk : Datum)

/-- The database after one relationship. -/
def relink (relationship : String × Datum) : Database Rest :=
  (acceptedValues constraints table database.rows database.rest pk relationship).foldl
    (addLink relationship.1 pk)
    (database.setLinks relationship.1 (unlink (database.links relationship.1) pk))

theorem handleRelationships_cons (relationship : String × Datum) (relationships : Data) :
    if rejected constraints table database.rows database.rest pk relationship then
      ∃ error, handleRelationships constraints table database pk (relationship :: relationships) =
        (relink constraints table database pk relationship, some error)
    else handleRelationships constraints table database pk (relationship :: relationships) =
      handleRelationships constraints table (relink constraints table database pk relationship) pk
        relationships := by
  obtain ⟨name, datum⟩ := relationship
  cases read : datum.iterate with
  | none =>
    simp only [rejected, read, Option.any_none, Bool.not_false, if_true, handleRelationships,
      relink, acceptedValues, Option.getD_none, takeWhile_nil]
    exact ⟨.typeError, rfl⟩
  | some values =>
    have later : values.all (linkable constraints table
        (database.setLinks name (unlink (database.links name) pk)).rows
        (database.setLinks name (unlink (database.links name) pk)).rest name pk) =
      values.all (linkable constraints table database.rows database.rest name pk) := rfl
    simp only [rejected, read, Option.any_some, handleRelationships, relink, acceptedValues,
      Option.getD_some, insertLinks_eq, later]
    cases values.all (linkable constraints table database.rows database.rest name pk) with
    | false => exact ⟨.integrityError, rfl⟩
    | true => rfl

theorem relink_spec (relationship : String × Datum) :
    Added (database.setLinks relationship.1 (unlink (database.links relationship.1) pk))
      relationship.1 pk
      (acceptedValues constraints table database.rows database.rest pk relationship)
      (relink constraints table database pk relationship) := foldl_addLink ..

theorem setLinks_self (name : String) (links : List Link) :
    (database.setLinks name links).links name = links := if_pos rfl

theorem setLinks_of_ne {name other : String} (differ : other ≠ name) (links : List Link) :
    (database.setLinks name links).links other = database.links other := if_neg differ

theorem handleRelationships_written (relationships : Data)
    (nodup : (Dict.keys relationships).Nodup) :
    Written constraints table database pk relationships
      (handleRelationships constraints table database pk relationships) := by
  induction relationships generalizing database with
  | nil => exact ⟨rfl, rfl, rfl, fun _ mem => absurd mem not_mem_nil, fun _ _ => rfl⟩
  | cons relationship relationships ih =>
    rw [Dict.keys, map_cons, nodup_cons] at nodup
    have head := handleRelationships_cons constraints table database pk relationship relationships
    have spec := relink_spec constraints table database pk relationship
    have rows : (relink constraints table database pk relationship).rows = database.rows :=
      spec.rows
    have rest : (relink constraints table database pk relationship).rest = database.rest :=
      spec.rest
    have others := spec.others
    have links := spec.links
    rw [setLinks_self] at links
    cases refused : rejected constraints table database.rows database.rest pk relationship with
    | true =>
      simp only [refused, if_true] at head
      obtain ⟨error, head⟩ := head
      rw [head]
      refine ⟨rows, rest, by simp [refused], ?_, ?_⟩
      · intro other mem
        simp only [reached, refused, if_true, mem_singleton] at mem
        exact mem ▸ links
      · intro name outside
        simp only [reached, refused, if_true, Dict.keys, map_cons, map_nil,
          mem_singleton] at outside
        rw [(others name outside).1, setLinks_of_ne database outside]
    | false =>
      simp only [refused, Bool.false_eq_true, if_false] at head
      rw [head]
      obtain ⟨rows', rest', raised', links', others'⟩ :=
        ih (relink constraints table database pk relationship) nodup.2
      rw [rows, rest] at raised' links' others'
      -- The name of this relationship does not come again, so later ones leave it alone.
      have fresh : relationship.1 ∉ keys (reached constraints table database.rows
          database.rest pk relationships) := fun mem =>
        nodup.1 (map_subset _ (reached_subset _ _ _ _) mem)
      refine ⟨rows'.trans rows, rest'.trans rest, ?_, ?_, ?_⟩
      · rw [raised', any_cons, refused, Bool.false_or]
      · intro other mem
        simp only [reached, refused, Bool.false_eq_true, if_false, mem_cons] at mem
        rcases mem with rfl | later
        · rw [others' _ fresh]
          exact links
        · have differ : other.1 ≠ relationship.1 := fun eq =>
            fresh (eq ▸ mem_map_of_mem later)
          have earlier := others other.1 differ
          rw [setLinks_of_ne database differ] at earlier
          have written := links' other later
          rw [earlier.1, earlier.2] at written
          exact written
      · intro name outside
        simp only [reached, refused, Bool.false_eq_true, if_false, Dict.keys, map_cons,
          mem_cons, not_or] at outside
        rw [others' name outside.2, (others name outside.1).1, setLinks_of_ne database outside.1]

structure Database.Valid : Prop where
  accepted : accepted constraints table database.rows database.rest = true
  linked : linked table database.rows database.links = true
  linkIds : ∀ name, ∀ link ∈ database.links name, link.id ≤ database.lastLinkId name

/-- A relationship of which nothing is written: there is no link to delete, and none is made
before the first invalid value. -/
structure Unlinked (rows : List Row) (relationship : String × Datum) : Prop where
  before : ∀ link ∈ database.links relationship.1, link.localPk ≠ pk
  accepted : acceptedValues constraints table rows database.rest pk relationship = []

variable {constraints table database pk}

theorem Written.same_iff {rows : List Row} {relationships : Data}
    {result : Database Rest × Option Error} (valid : database.Valid constraints table)
    (written : Written constraints table { database with rows := rows } pk relationships result) :
    result.1.Same database ↔ rows = database.rows ∧
      ∀ relationship ∈ reached constraints table rows database.rest pk relationships,
        Unlinked constraints table database pk rows relationship := by
  constructor
  · intro same
    refine ⟨written.rows.symm.trans same.rows, fun relationship mem => ?_⟩
    obtain ⟨added, eq, each, empty⟩ := written.links relationship mem
    rw [same.links] at eq
    obtain ⟨unlinked, none_⟩ := (unlink_append_eq_iff (valid.linkIds _) each).1 eq.symm
    exact ⟨unlinked, empty.1 none_⟩
  · rintro ⟨same, kept⟩
    refine ⟨written.rows.trans same, funext fun name => ?_, written.rest⟩
    by_cases touched : name ∈ keys (reached constraints table rows database.rest pk relationships)
    · obtain ⟨relationship, mem, rfl⟩ := mem_map.1 touched
      obtain ⟨added, eq, each, empty⟩ := written.links relationship mem
      rw [eq]
      exact (unlink_append_eq_iff (valid.linkIds _) each).2
        ⟨(kept relationship mem).before, empty.2 (kept relationship mem).accepted⟩
    · exact written.others name touched

end Relationships

section Names

variable {data values relationships : Data}

theorem nodup_relationships {table : Table} {namePrefix : String} (nodup : (Dict.keys data).Nodup)
    (extracted : extractRelationships table namePrefix data = .ok (values, relationships)) :
    (Dict.keys relationships).Nodup ∧ ∀ name ∈ Dict.keys relationships,
      (∃ key ∈ Dict.keys data, name = namePrefix ++ key) ∧
        name ∈ table.relationships := by
  induction data generalizing values relationships with
  | nil =>
    cases extracted
    exact ⟨nodup_nil, fun _ mem => absurd mem not_mem_nil⟩
  | cons entry data ih =>
    obtain ⟨key, datum⟩ := entry
    rw [Dict.keys, map_cons, nodup_cons] at nodup
    cases tail : extractRelationships table namePrefix data with
    | error error =>
      rw [extractRelationships, tail] at extracted
      split_ifs at extracted
      · cases extracted
      · cases named : getCol table key namePrefix with
        | error | ok => rw [named] at extracted; cases extracted
    | ok rest =>
      obtain ⟨restValues, restRelationships⟩ := rest
      obtain ⟨distinct, named⟩ := ih nodup.2 tail
      have later : ∀ name ∈ keys restRelationships,
          (∃ other ∈ keys ((key, datum) :: data), name = namePrefix ++ other) ∧
            name ∈ table.relationships := by
        intro name mem
        obtain ⟨⟨other, otherInside, eq⟩, known⟩ := named name mem
        exact ⟨⟨other, mem_cons_of_mem _ otherInside, eq⟩, known⟩
      rw [extractRelationships, tail] at extracted
      split_ifs at extracted with known
      · cases extracted
        refine ⟨nodup_cons.2 ⟨fun mem => ?_, distinct⟩, ?_⟩
        · obtain ⟨⟨other, otherInside, eq⟩, -⟩ := named _ mem
          have keys : key = other := by simpa using eq
          exact nodup.1 (keys ▸ otherInside)
        · rintro name (_ | ⟨_, mem⟩)
          · exact ⟨⟨key, mem_cons_self, rfl⟩, known⟩
          · exact later name mem
      · cases column : getCol table key namePrefix with
        | error _ => rw [column] at extracted; cases extracted
        | ok _ =>
          rw [column] at extracted
          cases extracted
          exact ⟨distinct, later⟩

theorem nodup_renameForeignKeys (table : Table) (nodup : (Dict.keys data).Nodup) :
    (Dict.keys (renameForeignKeys table data)).Nodup := by
  rw [renameForeignKeys]
  induction table.columns generalizing data with
  | nil => exact nodup
  | cons column columns ih =>
    rw [foldl_cons]
    refine ih ?_
    dsimp only
    split
    · exact nodup_set (nodup.sublist (filter_sublist.map _)) _ _
    · exact nodup

end Names

section Update

variable {Rest : Type} (constraints : Constraints Rest) (table : Table)

def updateEventsRaise (values : Data) (options : DatastoreOptions) (eventsRaise : Bool) : Bool :=
  decide (values ≠ []) && options.sendEvents && eventsRaise

/-- Whatever is written before an update raises was there already. When the row can be written:
if the events raise, the column values are those of the row; if a relationship is rejected, so
they are, and nothing is written of any relationship up to that one. -/
def UpdateAtomic (database : Database Rest) (target : Target) (data : Data)
    (options : DatastoreOptions) (eventsRaise : Bool) : Prop :=
  ∀ pk values relationships, target.resolve = .ok pk →
    extractRelationships table options.namePrefix (renameForeignKeys table data) =
      .ok (values, relationships) →
    (values = [] ∨ ∃ written, executeUpdate constraints table database pk values =
      some (written, 1)) →
    if updateEventsRaise values options eventsRaise then
      updatedRows table database.rows pk values = database.rows
    else
      relationships.any (rejected constraints table (updatedRows table database.rows pk values)
        database.rest pk) = true →
      updatedRows table database.rows pk values = database.rows ∧
      ∀ relationship ∈ reached constraints table (updatedRows table database.rows pk values)
          database.rest pk relationships,
        Unlinked constraints table database pk (updatedRows table database.rows pk values)
          relationship

variable {constraints table}

theorem updatedRows_nil (rows : List Row) (pk : Datum) : updatedRows table rows pk [] = rows := by
  have eq (row : Row) : setValues [] row = row := rfl
  simp [updatedRows, eq]

variable {pk : Datum} {values relationships data : Data}

theorem updatedRows_of_not_mem {rows : List Row} (absent : pk ∉ table.pks rows)
    (values : Data) : updatedRows table rows pk values = rows := by
  rw [updatedRows]
  refine (map_congr_left fun row mem => ?_).trans (map_id rows)
  exact if_neg fun eq => absent (mem_map.2 ⟨row, mem, eq⟩)

variable {database : Database Rest}

theorem pks_nodup (valid : database.Valid constraints table) : (table.pks database.rows).Nodup := by
  have accepted := valid.accepted
  simp only [Datastore.accepted, Bool.and_eq_true, decide_eq_true_eq] at accepted
  exact accepted.1.2

theorem executeUpdate_eq_some {written : Database Rest}
    {rowcount : Nat}
    (run : executeUpdate constraints table database pk values = some (written, rowcount)) :
    written = { database with rows := updatedRows table database.rows pk values } ∧
      rowcount = (table.pks database.rows).count pk := by
  simp only [executeUpdate, Option.ite_none_right_eq_some, Option.some.injEq, Prod.mk.injEq] at run
  exact ⟨run.2.1.symm, run.2.2.symm⟩

theorem with_rows_same_iff (database : Database Rest) (rows : List Row) :
    { database with rows := rows }.Same database ↔ rows = database.rows :=
  ⟨Database.Same.rows, fun eq => ⟨eq, rfl, rfl⟩⟩

/-- The rows are those of the database, and nothing is written of the relationships up to a
rejected one. -/
abbrev Unwritten (constraints : Constraints Rest) (table : Table) (database : Database Rest)
    (pk : Datum) (rows : List Row) (relationships : Data) : Prop :=
  relationships.any (rejected constraints table rows database.rest pk) = true →
    rows = database.rows ∧
    ∀ relationship ∈ reached constraints table rows database.rest pk relationships,
      Unlinked constraints table database pk rows relationship

theorem finishUpdate_atomic_iff (valid : database.Valid constraints table) (pk : Datum)
    (rows : List Row) (nodup : (Dict.keys relationships).Nodup) :
    ((finishUpdate constraints table { database with rows := rows } pk relationships).2.isOk =
        false →
      (finishUpdate constraints table { database with rows := rows } pk relationships).1.Same
        database) ↔
      Unwritten constraints table database pk rows relationships := by
  have written := handleRelationships_written constraints table { database with rows := rows } pk
    relationships nodup
  have raised := written.raised
  have same := written.same_iff valid
  rw [finishUpdate, Unwritten]
  cases run : handleRelationships constraints table { database with rows := rows } pk
      relationships with
  | mk result error =>
    rw [run] at raised same
    rw [← raised, ← same]
    cases error with
    | none | some => simp [Except.isOk, Except.toBool]

theorem updateAtomic_iff {target : Target} {options : DatastoreOptions}
    {eventsRaise : Bool}
    (resolved : target.resolve = .ok pk)
    (extracted : extractRelationships table options.namePrefix (renameForeignKeys table data) =
      .ok (values, relationships)) :
    UpdateAtomic constraints table database target data options eventsRaise ↔
      ((values = [] ∨ ∃ written, executeUpdate constraints table database pk values =
          some (written, 1)) →
        if updateEventsRaise values options eventsRaise then
          updatedRows table database.rows pk values = database.rows
        else
          Unwritten constraints table database pk (updatedRows table database.rows pk values)
            relationships) := by
  constructor
  · intro atomic
    exact atomic pk values relationships resolved extracted
  · intro condition pk' values' relationships' resolved' extracted'
    cases resolved.symm.trans resolved'
    cases extracted.symm.trans extracted'
    exact condition

theorem update_atomic_iff (valid : database.Valid constraints table) (target : Target)
    (nodup : (Dict.keys data).Nodup) (options : DatastoreOptions) (eventsRaise : Bool) :
    ((update constraints table database target data options eventsRaise).2.isOk = false →
      (update constraints table database target data options eventsRaise).1.Same database) ↔
      UpdateAtomic constraints table database target data options eventsRaise := by
  cases resolved : target.resolve with
  | error error =>
    simp only [update, resolved, Database.Same.refl, implies_true, true_iff]
    intro pk _ _ resolved'
    cases resolved.symm.trans resolved'
  | ok pk =>
    cases extracted : extractRelationships table options.namePrefix
        (renameForeignKeys table data) with
    | error error =>
      simp only [update, resolved, extracted, Database.Same.refl, implies_true, true_iff]
      intro _ _ _ _ extracted'
      cases extracted.symm.trans extracted'
    | ok prepared =>
      obtain ⟨values, relationships⟩ := prepared
      have names := (nodup_relationships (nodup_renameForeignKeys table nodup) extracted).1
      rw [updateAtomic_iff resolved extracted]
      simp only [update, resolved, extracted]
      by_cases none_ : values = []
      · subst none_
        have finish := finishUpdate_atomic_iff valid pk database.rows names
        simpa [updateEventsRaise, updatedRows_nil] using finish
      · rw [if_neg none_]
        cases run : executeUpdate constraints table database pk values with
        | none => simp [none_]
        | some result =>
          obtain ⟨written, rowcount⟩ := result
          obtain ⟨rfl, counted⟩ := executeUpdate_eq_some run
          dsimp only
          by_cases one : rowcount = 1
          · subst one
            rw [if_neg (not_not_intro rfl)]
            refine Iff.trans ?_ (imp_iff_right (Or.inr ⟨_, rfl⟩)).symm
            have sent : updateEventsRaise values options eventsRaise =
                (options.sendEvents && eventsRaise) := by simp [updateEventsRaise, none_]
            rw [sent]
            cases options.sendEvents && eventsRaise with
            | true =>
              rw [if_pos rfl, if_pos rfl, ← with_rows_same_iff]
              exact imp_iff_right rfl
            | false =>
              rw [if_neg Bool.false_ne_true, if_neg Bool.false_ne_true]
              exact finishUpdate_atomic_iff valid pk _ names
          · -- No row has the key, so the statement has updated nothing.
            have few := nodup_iff_count_le_one.1 (pks_nodup valid) pk
            have absent : pk ∉ table.pks database.rows :=
              count_eq_zero.1 (by omega)
            rw [if_pos one, updatedRows_of_not_mem absent]
            simp [none_, one]

end Update

section Insert

variable {Rest : Type} (constraints : Constraints Rest) (table : Table)

/-- When the row can be inserted: if no relationship is rejected, sending the events does not
raise; if one is, the key was not given as NULL. -/
def InsertAtomic (database : Database Rest) (data : Data) (options : DatastoreOptions)
    (eventsRaise : Bool) : Prop :=
  ∀ values relationships,
    extractRelationships table options.namePrefix data = .ok (values, relationships) →
    ∀ inserted pk,
      executeInsert constraints table database (setDefaults table values) = some inserted →
      insertedPk table database (setDefaults table values) = .ok pk →
      if relationships.any (rejected constraints table inserted.rows database.rest pk) then
        pk ≠ .scalar .null
      else (options.sendEvents && eventsRaise) = false

variable {constraints table}
  {database inserted : Database Rest} {pk : Datum} {values data : Data} {row : Row}

theorem executeInsert_eq_some
    (run : executeInsert constraints table database values = some inserted) :
    inserted = { database with
        rows := database.rows ++ [storedRow table database values]
        lastRowid := rowid table database.lastRowid (storedRow table database values) } ∧
      accepted constraints table (database.rows ++ [storedRow table database values])
        database.rest = true := by
  simp only [executeInsert, Option.ite_none_right_eq_some, Option.some.injEq] at run
  exact ⟨run.2.symm, run.1⟩

theorem storedRow_pk (key : insertedPk table database values = .ok pk)
    (given : pk ≠ .scalar .null) :
    storedRow table database values table.pk = pk := by
  rw [insertedPk] at key
  rw [storedRow]
  split at key
  · rename_i datum found
    obtain rfl : datum = pk := Except.ok.inj key
    simp [found, given]
  · rename_i found
    split_ifs at key with integer
    obtain rfl := Except.ok.inj key
    simp [found, integer]

theorem insertedPk_isOk (run : executeInsert constraints table database values = some inserted) :
    ∃ pk, insertedPk table database values = .ok pk := by
  rw [insertedPk]
  cases found : values.lookup table.pk with
  | some datum => exact ⟨datum, rfl⟩
  | none =>
    cases integer : table.integerPk with
    | true => exact ⟨_, rfl⟩
    | false =>
      have accepted := (executeInsert_eq_some run).2
      have null : storedRow table database values table.pk = .scalar .null := by
        simp [storedRow, found, integer]
      simp [Datastore.accepted, Table.pks, null] at accepted

structure Fresh (table : Table) (database : Database Rest) (row : Row) (pk : Datum) : Prop where
  stored : row table.pk = pk
  absent : pk ∉ table.pks database.rows
  unlinked : ∀ name ∈ table.relationships, ∀ link ∈ database.links name, link.localPk ≠ pk

theorem append_row_ne (database : Database Rest) (row : Row) :
    database.rows ++ [row] ≠ database.rows := by
  intro eq
  have lengths := congrArg length eq
  simp at lengths

/-- The `except` clause deletes the row and the links that were made. -/
theorem Fresh.executeDelete_same (fresh : Fresh table database row pk) {last : Int}
    {relationships : Data} {result : Database Rest × Option Error}
    (wrote : Written constraints table
      { database with rows := database.rows ++ [row], lastRowid := last } pk relationships result)
    (known : ∀ name ∈ Dict.keys relationships, name ∈ table.relationships) :
    (executeDelete table result.1 pk).Same database := by
  have others : ∀ other ∈ database.rows, other table.pk ≠ pk := fun other mem eq =>
    fresh.absent (mem_map.2 ⟨other, mem, eq⟩)
  have present : pk ∈ table.pks result.1.rows := by
    rw [wrote.rows]
    exact mem_map.2 ⟨row, by simp, fresh.stored⟩
  refine ⟨?_, funext fun name => ?_, wrote.rest⟩
  · simp only [executeDelete, wrote.rows]
    rw [filter_append, filter_eq_self.2 fun other mem => decide_eq_true (others other mem)]
    simp [fresh.stored]
  · simp only [executeDelete, present, true_and]
    by_cases touched : name ∈ keys (reached constraints table (database.rows ++ [row])
        database.rest pk relationships)
    · obtain ⟨relationship, mem, rfl⟩ := mem_map.1 touched
      have mine := known _ (mem_map_of_mem (reached_subset _ _ _ _ mem))
      obtain ⟨added, eq, each, -⟩ := wrote.links relationship mem
      have gone : unlink added pk = [] :=
        filter_eq_nil_iff.2 fun link mem => by simpa using (each link mem).1
      have kept : unlink (database.links relationship.1) pk = database.links relationship.1 :=
        filter_eq_self.2 fun link mem => decide_eq_true (fresh.unlinked _ mine link mem)
      rw [if_pos mine, eq, kept, unlink, filter_append, ← unlink, ← unlink, kept, gone, append_nil]
    · rw [wrote.others name touched]
      split_ifs with mine
      · exact filter_eq_self.2 fun link mem => decide_eq_true (fresh.unlinked name mine link mem)
      · rfl

theorem insertAtomic_iff {options : DatastoreOptions} {eventsRaise : Bool} {relationships : Data}
    (extracted : extractRelationships table options.namePrefix data = .ok (values, relationships))
    (run : executeInsert constraints table database (setDefaults table values) = some inserted)
    (key : insertedPk table database (setDefaults table values) = .ok pk) :
    InsertAtomic constraints table database data options eventsRaise ↔
      if relationships.any (rejected constraints table inserted.rows database.rest pk) then
        pk ≠ .scalar .null
      else (options.sendEvents && eventsRaise) = false := by
  constructor
  · intro atomic
    exact atomic values relationships extracted inserted pk run key
  · intro condition values' relationships' extracted' inserted' pk' run' key'
    cases extracted.symm.trans extracted'
    cases run.symm.trans run'
    cases key.symm.trans key'
    exact condition

theorem fresh_of_inserted (valid : database.Valid constraints table)
    (accepted : accepted constraints table (database.rows ++ [storedRow table database values])
      database.rest = true)
    (key : insertedPk table database values = .ok pk) (given : pk ≠ .scalar .null) :
    Fresh table database (storedRow table database values) pk := by
  have stored := storedRow_pk key given
  simp only [Datastore.accepted, Bool.and_eq_true, decide_eq_true_eq] at accepted
  have absent : pk ∉ table.pks database.rows := by
    have nodup := accepted.1.2
    rw [Table.pks, map_append, map_singleton, stored] at nodup
    exact fun mem => (nodup_append.1 nodup).2.2 pk mem pk mem_cons_self rfl
  refine ⟨stored, absent, fun name mem link linkInside eq => ?_⟩
  have linked := valid.linked
  simp only [Datastore.linked, all_eq_true, decide_eq_true_eq] at linked
  exact absent (eq ▸ linked name mem link linkInside)

theorem insert_atomic_iff (valid : database.Valid constraints table)
    (nodup : (Dict.keys data).Nodup) (options : DatastoreOptions) (eventsRaise : Bool) :
    ((insert constraints table database data options eventsRaise).2.isOk = false →
      (insert constraints table database data options eventsRaise).1.Same database) ↔
      InsertAtomic constraints table database data options eventsRaise := by
  cases extracted : extractRelationships table options.namePrefix data with
  | error error =>
    simp only [insert, extracted, Database.Same.refl, implies_true, true_iff]
    intro _ _ extracted'
    cases extracted.symm.trans extracted'
  | ok prepared =>
    obtain ⟨values, relationships⟩ := prepared
    obtain ⟨names, known⟩ := nodup_relationships nodup extracted
    cases run : executeInsert constraints table database (setDefaults table values) with
    | none =>
      simp only [insert, extracted, run, Database.Same.refl, implies_true, true_iff]
      intro _ _ extracted' _ _ run'
      cases extracted.symm.trans extracted'
      cases run.symm.trans run'
    | some inserted =>
      obtain ⟨pk, key⟩ := insertedPk_isOk run
      rw [insertAtomic_iff extracted run key]
      obtain ⟨rfl, accepted⟩ := executeInsert_eq_some run
      have fresh := fresh_of_inserted valid accepted key
      simp only [insert, extracted, run, key]
      generalize storedRow table database (setDefaults table values) = row at accepted fresh ⊢
      generalize rowid table database.lastRowid row = last
      have written := handleRelationships_written constraints table
        { database with rows := database.rows ++ [row], lastRowid := last } pk relationships names
      cases result : handleRelationships constraints table
          { database with rows := database.rows ++ [row], lastRowid := last } pk
          relationships with
      | mk final error =>
        rw [result] at written
        have raised := written.raised
        have rowsEq : final.rows = database.rows ++ [row] := written.rows
        have changed : final.rows ≠ database.rows := rowsEq ▸ append_row_ne database row
        cases error with
        | none =>
          simp only [← raised, Option.isSome_none, Bool.false_eq_true, if_false]
          cases options.sendEvents && eventsRaise with
          | true => simpa [Except.isOk, Except.toBool] using fun same => changed same.rows
          | false => simp [Except.isOk, Except.toBool]
        | some error =>
          simp only [← raised, Option.isSome_some, if_true]
          refine (imp_iff_right rfl).trans ⟨fun same given => ?_, fun given =>
            (fresh given).executeDelete_same written fun name mem => (known name mem).2⟩
          -- No row has the key NULL: the deletion finds nothing.
          simp only [Datastore.accepted, Bool.and_eq_true, decide_eq_true_eq] at accepted
          have absent : ∀ row' ∈ final.rows, row' table.pk ≠ pk := fun row' mem eq =>
            accepted.2 (given ▸ mem_map.2 ⟨row', rowsEq ▸ mem, eq⟩)
          have rows := same.rows
          simp only [executeDelete] at rows
          rw [filter_eq_self.2 fun row' mem => decide_eq_true (absent row' mem)] at rows
          exact changed rows

end Insert

/-- A call that raises leaves every table as it was iff the condition of its kind holds. -/
theorem datastore_write_atomic_iff {Rest : Type} (constraints : Constraints Rest) (table : Table)
    (database : Database Rest) (valid : database.Valid constraints table) (data : Data)
    (nodup : (Dict.keys data).Nodup) (options : DatastoreOptions) (eventsRaise : Bool) :
    (((insert constraints table database data options eventsRaise).2.isOk = false →
        (insert constraints table database data options eventsRaise).1.Same database) ↔
      InsertAtomic constraints table database data options eventsRaise) ∧
    ∀ target, ((update constraints table database target data options eventsRaise).2.isOk = false →
        (update constraints table database target data options eventsRaise).1.Same database) ↔
      UpdateAtomic constraints table database target data options eventsRaise :=
  ⟨insert_atomic_iff valid nodup options eventsRaise,
    fun target => update_atomic_iff valid target nodup options eventsRaise⟩

section Example

def users : Table where
  columns := [{ name := "id" }, { name := "bsdusr_full_name" }]
  pk := "id"
  integerPk := true
  relationships := ["bsdusr_groups"]

def groups : Constraints (List Value) where
  accepts _ _ := true
  remoteExists rest _ value := decide (value ∈ rest)

def oneUser : Database (List Value) where
  rows := [fun name => if name = "id" then .scalar (.integer 1) else .scalar .null]
  links _ := []
  rest := [.integer 10]

theorem oneUser_valid : oneUser.Valid groups users :=
  ⟨rfl, rfl, fun _ _ mem => absurd mem not_mem_nil⟩

/-- The user is in group 10. -/
def oneMember : Database (List Value) :=
  { oneUser with
    links := fun name => if name = "bsdusr_groups" then [⟨1, .scalar (.integer 1), .integer 10⟩]
      else []
    lastLinkId := fun _ => 1 }

def user : Target := .id (.scalar (.integer 1))

def userOptions : DatastoreOptions := { namePrefix := "bsdusr_" }

theorem datastore_write_atomic_iff_unknown_group :
    (update groups users oneUser user [("groups", .list [.integer 99])] userOptions false).2.isOk =
        false ∧
      (update groups users oneUser user [("groups", .list [.integer 99])] userOptions
        false).1.Same oneUser := by
  have raises : (update groups users oneUser user [("groups", .list [.integer 99])] userOptions
      false).2.isOk = false := by decide +kernel
  refine ⟨raises, ((datastore_write_atomic_iff groups users oneUser oneUser_valid _ (by decide)
    userOptions false).2 user).2 ?_ raises⟩
  have extracted : extractRelationships users userOptions.namePrefix
      (renameForeignKeys users [("groups", .list [.integer 99])]) =
        .ok ([], [("bsdusr_groups", .list [.integer 99])]) := by rfl
  refine (updateAtomic_iff rfl extracted).2 fun _ => ?_
  rw [updatedRows_nil]
  intro _
  refine ⟨rfl, fun relationship inside => ?_⟩
  obtain rfl := mem_singleton.1 (reached_subset _ _ _ _ inside)
  exact ⟨fun _ mem => absurd mem not_mem_nil, rfl⟩

/-- A name stays changed although the group is unknown; so does a membership that is written again
before the unknown group is met. -/
theorem update_keeps_column_of_failed_call : ((update groups users oneUser user
        [("full_name", .scalar (.text "x")), ("groups", .list [.integer 99])] userOptions
        false).2.isOk = false ∧
      ¬ (update groups users oneUser user
        [("full_name", .scalar (.text "x")), ("groups", .list [.integer 99])] userOptions
        false).1.Same oneUser) ∧
    (update groups users oneMember user [("groups", .list [.integer 10, .integer 99])] userOptions
        false).2.isOk = false ∧
      ¬ (update groups users oneMember user [("groups", .list [.integer 10, .integer 99])]
        userOptions false).1.Same oneMember := by
  refine ⟨⟨by decide +kernel, fun same => ?_⟩, by decide +kernel, fun same => ?_⟩
  · have names := congrArg (fun rows => rows.map fun row => row "bsdusr_full_name") same.rows
    exact absurd names (by decide +kernel)
  · have ids := congrArg (fun links => (links "bsdusr_groups").map Link.id) same.links
    exact absurd ids (by decide +kernel)

end Example

end TruenasMiddleware.Datastore
