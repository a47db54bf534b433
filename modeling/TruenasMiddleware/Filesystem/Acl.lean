import TruenasMiddleware.Foundation.Dict
import Mathlib.Data.Finset.Basic

/-! NFSv4 ACLs of `utils/filesystem/acl.py`: the conversion between the objects of `truenas_os`
and the dictionaries of the API. A flag value of `truenas_os`, whose members are distinct bits, is
the set of its members. -/

namespace TruenasMiddleware.Filesystem

open List

inductive NFS4Perm
  | readData
  | writeData
  | appendData
  | readNamedAttrs
  | writeNamedAttrs
  | execute
  | delete
  | deleteChild
  | readAttributes
  | writeAttributes
  | readAcl
  | writeAcl
  | writeOwner
  | synchronize
deriving DecidableEq

inductive NFS4Flag
  | fileInherit
  | directoryInherit
  | noPropagateInherit
  | inheritOnly
  | successfulAccess
  | failedAccess
  | identifierGroup
  | inherited
deriving DecidableEq

inductive NFS4ACLFlag
  | autoInherit
  | isProtected
  | defaulted
deriving DecidableEq

inductive NFS4AceType
  | allow
  | deny
  | audit
  | alarm
deriving DecidableEq

inductive NFS4Who
  | named
  | owner
  | group
  | everyone
deriving DecidableEq

/-- Whom an entry is about; only a named entry has an id of its own. -/
structure Who where
  whoType : NFS4Who
  whoId : Int
  special : whoType ≠ .named → whoId = -1

structure NFS4Ace where
  aceType : NFS4AceType
  aceFlags : Finset NFS4Flag
  accessMask : Finset NFS4Perm
  who : Who

structure NFS4ACL where
  aces : List NFS4Ace
  aclFlags : Finset NFS4ACLFlag

def NFS4Perm.name : NFS4Perm → String
  | .readData => "READ_DATA"
  | .writeData => "WRITE_DATA"
  | .appendData => "APPEND_DATA"
  | .readNamedAttrs => "READ_NAMED_ATTRS"
  | .writeNamedAttrs => "WRITE_NAMED_ATTRS"
  | .execute => "EXECUTE"
  | .delete => "DELETE"
  | .deleteChild => "DELETE_CHILD"
  | .readAttributes => "READ_ATTRIBUTES"
  | .writeAttributes => "WRITE_ATTRIBUTES"
  | .readAcl => "READ_ACL"
  | .writeAcl => "WRITE_ACL"
  | .writeOwner => "WRITE_OWNER"
  | .synchronize => "SYNCHRONIZE"

def NFS4Flag.name : NFS4Flag → String
  | .fileInherit => "FILE_INHERIT"
  | .directoryInherit => "DIRECTORY_INHERIT"
  | .noPropagateInherit => "NO_PROPAGATE_INHERIT"
  | .inheritOnly => "INHERIT_ONLY"
  | .successfulAccess => "SUCCESSFUL_ACCESS"
  | .failedAccess => "FAILED_ACCESS"
  | .identifierGroup => "IDENTIFIER_GROUP"
  | .inherited => "INHERITED"

def NFS4ACLFlag.name : NFS4ACLFlag → String
  | .autoInherit => "autoinherit"
  | .isProtected => "protected"
  | .defaulted => "defaulted"

def NFS4AceType.name : NFS4AceType → String
  | .allow => "ALLOW"
  | .deny => "DENY"
  | .audit => "AUDIT"
  | .alarm => "ALARM"

def permNames : List NFS4Perm :=
  [.readData, .writeData, .appendData, .readNamedAttrs, .writeNamedAttrs, .execute, .delete,
    .deleteChild, .readAttributes, .writeAttributes, .readAcl, .writeAcl, .writeOwner, .synchronize]

def flagNames : List NFS4Flag :=
  [.fileInherit, .directoryInherit, .noPropagateInherit, .inheritOnly, .successfulAccess,
    .failedAccess, .inherited]

/-- `_NFS4_OUTPUT_FLAG_NAMES`: the audit flags are left out. -/
def outputFlagNames : List NFS4Flag :=
  [.fileInherit, .directoryInherit, .noPropagateInherit, .inheritOnly, .inherited]

def aclFlagNames : List NFS4ACLFlag := [.autoInherit, .isProtected, .defaulted]

def basicFull : Finset NFS4Perm := permNames.toFinset

def basicModify : Finset NFS4Perm := basicFull \ {.writeAcl, .writeOwner}

def basicRead : Finset NFS4Perm :=
  {.readData, .readNamedAttrs, .readAttributes, .readAcl, .execute, .synchronize}

def basicTraverse : Finset NFS4Perm :=
  {.readNamedAttrs, .readAttributes, .execute, .synchronize}

def basicPerms : List (String × Finset NFS4Perm) :=
  [("FULL_CONTROL", basicFull), ("MODIFY", basicModify), ("READ", basicRead),
    ("TRAVERSE", basicTraverse)]

def basicFlags : List (String × Finset NFS4Flag) :=
  [("INHERIT", {.fileInherit, .directoryInherit}), ("NOINHERIT", ∅)]

def tagToWho : List (String × NFS4Who) :=
  [("owner@", .owner), ("group@", .group), ("everyone@", .everyone)]

inductive Value
  | bool (value : Bool)
  | text (value : String)

def Value.truthy : Value → Bool
  | .bool value => value
  | .text value => decide (value ≠ "")

abbrev FlagDict := List (String × Value)

structure AceDict where
  tag : String
  id : Int
  type : String
  perms : FlagDict
  flags : Option FlagDict

structure AclDict where
  uid : Int
  gid : Int
  aclflags : FlagDict
  isTrivial : Bool
  acl : List AceDict

/-- The `ValueError`s, with what was not known. -/
inductive Error
  | unknownTag (tag : String)
  | unknownBasicPermission (value : Value)
  | unknownBasicFlag (value : Value)

section Flags

variable {F : Type} [DecidableEq F]

def objToFullDict (name : F → String) (names : List F) (flags : Finset F) : FlagDict :=
  names.map fun n => (name n, .bool (decide (n ∈ flags)))

def dictToObj (name : F → String) (names : List F) (dict : FlagDict) : Finset F :=
  names.foldl
    (fun flags n => if (dict.lookup (name n)).any Value.truthy then insert n flags else flags) ∅

def basicName (table : List (String × Finset F)) (flags : Finset F) : Option String :=
  (table.map Prod.swap).lookup flags

def flagsToDict (full : Finset F → FlagDict) (table : List (String × Finset F))
    (simplified : Bool) (flags : Finset F) : FlagDict :=
  match if simplified then basicName table flags else none with
  | some basic => [("BASIC", .text basic)]
  | none => full flags

def basicValue (table : List (String × Finset F)) : Value → Option (Finset F)
  | .text value => table.lookup value
  | .bool _ => none

def flagsOfDict (ofFull : FlagDict → Finset F) (table : List (String × Finset F))
    (unknown : Value → Error) (dict : FlagDict) : Except Error (Finset F) :=
  match dict.lookup "BASIC" with
  | some value =>
    match basicValue table value with
    | some flags => .ok flags
    | none => .error (unknown value)
  | none => .ok (ofFull dict)

end Flags

def permObjToFullDict : Finset NFS4Perm → FlagDict := objToFullDict NFS4Perm.name permNames

def flagsObjToDict : Finset NFS4Flag → FlagDict := objToFullDict NFS4Flag.name outputFlagNames

def permDictToObj : FlagDict → Finset NFS4Perm := dictToObj NFS4Perm.name permNames

def flagsDictToObj : FlagDict → Finset NFS4Flag := dictToObj NFS4Flag.name flagNames

def whoOfTag (tag : String) (id : Int) : Except Error (Who × Finset NFS4Flag) :=
  -- the special members of `NFS4Who` are truthy
  match tagToWho.lookup tag with
  | some whoType => .ok (⟨whoType, -1, fun _ => rfl⟩, ∅)
  | none =>
    if tag = "USER" then .ok (⟨.named, id, fun other => absurd rfl other⟩, ∅)
    else if tag = "GROUP" then
      .ok (⟨.named, id, fun other => absurd rfl other⟩, {.identifierGroup})
    else .error (.unknownTag tag)

def nfs4aceDictToObj (ace : AceDict) : Except Error NFS4Ace := do
  let (who, extraFlags) ← whoOfTag ace.tag ace.id
  let accessMask ← flagsOfDict permDictToObj basicPerms .unknownBasicPermission ace.perms
  let aceFlags ← flagsOfDict flagsDictToObj basicFlags .unknownBasicFlag (ace.flags.getD [])
  return {
    aceType := if ace.type = "ALLOW" then .allow else .deny
    aceFlags := aceFlags ∪ extraFlags
    accessMask := accessMask
    who := who }

/-- `fromAces` is `truenas_os.NFS4ACL.from_aces`. -/
def nfs4aclDictToObj (fromAces : List NFS4Ace → Finset NFS4ACLFlag → NFS4ACL)
    (acl : List AceDict) (aclflags : Option FlagDict) : Except Error NFS4ACL := do
  let aces ← acl.mapM nfs4aceDictToObj
  return fromAces aces (dictToObj NFS4ACLFlag.name aclFlagNames (aclflags.getD []))

def tagOfWho (ace : NFS4Ace) : String × Int :=
  match (tagToWho.map Prod.swap).lookup ace.who.whoType with
  | some tag => (tag, -1)
  | none =>
    if .identifierGroup ∈ ace.aceFlags then ("GROUP", ace.who.whoId) else ("USER", ace.who.whoId)

def nfs4aceObjToDict (simplified : Bool) (ace : NFS4Ace) : AceDict where
  tag := (tagOfWho ace).1
  id := (tagOfWho ace).2
  type := ace.aceType.name
  perms := flagsToDict permObjToFullDict basicPerms simplified ace.accessMask
  flags := some (flagsToDict flagsObjToDict basicFlags simplified
    (ace.aceFlags.erase .identifierGroup))

/-- `isTrivial` is the attribute `trivial` of `truenas_os.NFS4ACL`. -/
def nfs4aclObjToDict (isTrivial : NFS4ACL → Bool) (acl : NFS4ACL) (uid gid : Int)
    (simplified : Bool) : AclDict where
  uid := uid
  gid := gid
  aclflags := objToFullDict NFS4ACLFlag.name aclFlagNames acl.aclFlags
  isTrivial := isTrivial acl
  acl := acl.aces.map (nfs4aceObjToDict simplified)

section Flags

variable {F : Type} [DecidableEq F] {name : F → String} {names written : List F}
  {n : F} {table : List (String × Finset F)}

theorem mem_dictToObj {dict : FlagDict} : n ∈ dictToObj name names dict ↔
    n ∈ names ∧ (dict.lookup (name n)).any Value.truthy = true := by
  rw [dictToObj]
  induction names using reverseRecOn with
  | nil => simp
  | append_singleton before last ih =>
    rw [foldl_append, foldl_cons, foldl_nil, mem_append, mem_singleton]
    split_ifs with given
    · rw [Finset.mem_insert, ih]
      grind
    · rw [ih]
      grind

variable {flags read : Finset F}

theorem lookup_objToFullDict (injective : Function.Injective name) :
    (objToFullDict name names flags).lookup (name n) =
      if n ∈ names then some (.bool (decide (n ∈ flags))) else none := by
  induction names with
  | nil => rfl
  | cons first rest ih =>
    rw [objToFullDict, map_cons, ← objToFullDict, Dict.lookup_cons, ih]
    simp only [injective.eq_iff, mem_cons]
    by_cases eq : n = first
    · simp [eq]
    · simp [eq]

theorem lookup_basic_objToFullDict (other : ∀ n, name n ≠ "BASIC") :
    (objToFullDict name names flags).lookup "BASIC" = none := by
  refine Dict.lookup_eq_none.mpr ?_
  rw [Dict.keys, objToFullDict, map_map]
  rintro mem
  obtain ⟨n, -, eq⟩ := mem_map.mp mem
  exact other n eq

theorem dictToObj_objToFullDict (injective : Function.Injective name) :
    dictToObj name names (objToFullDict name written flags) =
      flags.filter fun n => n ∈ names ∧ n ∈ written := by
  ext n
  rw [mem_dictToObj, lookup_objToFullDict injective, Finset.mem_filter]
  by_cases there : n ∈ written <;> simp [there, Value.truthy, and_comm]

theorem mem_of_basicName {basic : String} (found : basicName table flags = some basic) :
    (basic, flags) ∈ table := by
  obtain ⟨entry, mem, swapped⟩ := mem_map.mp (Dict.mem_of_lookup found)
  obtain ⟨rfl, rfl⟩ := Prod.mk.inj swapped
  exact mem

theorem flagsOfDict_flagsToDict {ofFull : FlagDict → Finset F} {full : Finset F → FlagDict}
    {unknown : Value → Error} {simplified : Bool}
    (nodup : (Dict.keys table).Nodup) (long : (full flags).lookup "BASIC" = none)
    (back : ofFull (full flags) = read)
    (short : ∀ basic, basicName table flags = some basic → read = flags) :
    flagsOfDict ofFull table unknown (flagsToDict full table simplified flags) = .ok read := by
  rw [flagsToDict]
  split
  · rename_i basic found
    have named : basicName table flags = some basic := by
      cases simplified
      · cases found
      · exact found
    have value : basicValue table (.text basic) = some flags :=
      Dict.lookup_of_mem nodup (mem_of_basicName named)
    simp [flagsOfDict, value, short basic named]
  · rw [flagsOfDict, long, ← back]

end Flags

theorem perm_name_injective : Function.Injective NFS4Perm.name := by
  intro first second
  cases first <;> cases second <;> decide

theorem flag_name_injective : Function.Injective NFS4Flag.name := by
  intro first second
  cases first <;> cases second <;> decide

theorem aclFlag_name_injective : Function.Injective NFS4ACLFlag.name := by
  intro first second
  cases first <;> cases second <;> decide

theorem permDictToObj_permObjToFullDict (perm : Finset NFS4Perm) :
    permDictToObj (permObjToFullDict perm) = perm := by
  rw [permDictToObj, permObjToFullDict, dictToObj_objToFullDict perm_name_injective]
  refine Finset.filter_true_of_mem fun n _ => ?_
  cases n <;> decide

theorem flagsDictToObj_flagsObjToDict (flags : Finset NFS4Flag) :
    flagsDictToObj (flagsObjToDict flags) = flags.filter (· ∈ outputFlagNames) := by
  rw [flagsDictToObj, flagsObjToDict, dictToObj_objToFullDict flag_name_injective]
  refine Finset.filter_congr fun n _ => ?_
  cases n <;> decide

theorem perms_back (simplified : Bool) (perm : Finset NFS4Perm) :
    flagsOfDict permDictToObj basicPerms .unknownBasicPermission
      (flagsToDict permObjToFullDict basicPerms simplified perm) = .ok perm := by
  refine flagsOfDict_flagsToDict (by decide) (lookup_basic_objToFullDict ?_)
    (permDictToObj_permObjToFullDict perm) fun _ _ => rfl
  intro n
  cases n <;> decide

theorem flags_back (simplified : Bool) (flags : Finset NFS4Flag) :
    flagsOfDict flagsDictToObj basicFlags .unknownBasicFlag
      (flagsToDict flagsObjToDict basicFlags simplified flags) =
        .ok (flags.filter (· ∈ outputFlagNames)) := by
  refine flagsOfDict_flagsToDict (by decide) (lookup_basic_objToFullDict ?_)
    (flagsDictToObj_flagsObjToDict flags) ?_
  · intro n
    cases n <;> decide
  · intro basic found
    have short : ∀ entry ∈ basicFlags, entry.2.filter (· ∈ outputFlagNames) = entry.2 := by decide
    exact short _ (mem_of_basicName found)

def groupFlag (ace : NFS4Ace) : Finset NFS4Flag :=
  if ace.who.whoType = .named ∧ .identifierGroup ∈ ace.aceFlags then {.identifierGroup} else ∅

variable {ace : NFS4Ace}

theorem mem_groupFlag {n : NFS4Flag} : n ∈ groupFlag ace ↔
    n = .identifierGroup ∧ ace.who.whoType = .named ∧ .identifierGroup ∈ ace.aceFlags := by
  rw [groupFlag]
  split_ifs with group <;> simp [group]

theorem who_back (ace : NFS4Ace) :
    whoOfTag (tagOfWho ace).1 (tagOfWho ace).2 = .ok (ace.who, groupFlag ace) := by
  obtain ⟨aceType, aceFlags, accessMask, ⟨whoType, whoId, special⟩⟩ := ace
  cases whoType with
  | named =>
    have tag : tagOfWho ⟨aceType, aceFlags, accessMask, ⟨.named, whoId, special⟩⟩ =
        if .identifierGroup ∈ aceFlags then ("GROUP", whoId) else ("USER", whoId) := rfl
    rw [tag, groupFlag]
    by_cases group : NFS4Flag.identifierGroup ∈ aceFlags
    · rw [if_pos group, if_pos ⟨rfl, group⟩]
      rfl
    · rw [if_neg group, if_neg fun both => group both.2]
      rfl
  | owner | group | everyone =>
    obtain rfl := special nofun
    rfl

def NFS4Ace.converted (ace : NFS4Ace) : NFS4Ace :=
  { ace with
    aceType := if ace.aceType = .allow then .allow else .deny
    aceFlags := ((ace.aceFlags.erase .identifierGroup).filter (· ∈ outputFlagNames)) ∪
      groupFlag ace }

theorem nfs4aceDictToObj_nfs4aceObjToDict (simplified : Bool) (ace : NFS4Ace) :
    nfs4aceDictToObj (nfs4aceObjToDict simplified ace) = .ok ace.converted := by
  have type : (if ace.aceType.name = "ALLOW" then NFS4AceType.allow else .deny) =
      if ace.aceType = .allow then .allow else .deny := by
    cases ace.aceType <;> decide
  have perms := perms_back simplified ace.accessMask
  have flags := flags_back simplified (ace.aceFlags.erase .identifierGroup)
  simp only [nfs4aceDictToObj, nfs4aceObjToDict, who_back, Option.getD_some, perms, flags]
  rw [NFS4Ace.converted, ← type]
  rfl

def NFS4Ace.Unaudited (ace : NFS4Ace) : Prop :=
  (ace.aceType = .allow ∨ ace.aceType = .deny) ∧
    .successfulAccess ∉ ace.aceFlags ∧ .failedAccess ∉ ace.aceFlags

def NFS4Ace.GroupNamed (ace : NFS4Ace) : Prop :=
  .identifierGroup ∈ ace.aceFlags → ace.who.whoType = .named

instance (ace : NFS4Ace) : Decidable ace.Unaudited :=
  inferInstanceAs (Decidable (_ ∧ _))

instance (ace : NFS4Ace) : Decidable ace.GroupNamed :=
  inferInstanceAs (Decidable (_ → _))

theorem converted_flags_iff : ace.converted.aceFlags = ace.aceFlags ↔
    .successfulAccess ∉ ace.aceFlags ∧ .failedAccess ∉ ace.aceFlags ∧ ace.GroupNamed := by
  have mem : ∀ n, n ∈ ace.converted.aceFlags ↔ n ∈ ace.aceFlags ∧
      (n ∈ outputFlagNames ∨ n = .identifierGroup ∧ ace.who.whoType = .named) := by
    intro n
    rw [NFS4Ace.converted, Finset.mem_union, Finset.mem_filter, Finset.mem_erase, mem_groupFlag]
    cases n <;> simp [outputFlagNames, and_comm]
  rw [Finset.ext_iff]
  simp only [mem, NFS4Ace.GroupNamed, and_iff_left_iff_imp]
  constructor
  · intro all
    refine ⟨fun inside => ?_, fun inside => ?_, fun inside => ?_⟩
    all_goals simpa [outputFlagNames] using all _ inside
  · rintro ⟨successful, failed, group⟩ n inside
    cases n <;> simp_all [outputFlagNames]

theorem converted_eq_iff :
    ace.converted = ace ↔ ace.Unaudited ∧ ace.GroupNamed := by
  have type : (if ace.aceType = .allow then NFS4AceType.allow else .deny) = ace.aceType ↔
      ace.aceType = .allow ∨ ace.aceType = .deny := by
    cases ace.aceType <;> decide
  have split : ace.converted = ace ↔
      ace.converted.aceType = ace.aceType ∧ ace.converted.aceFlags = ace.aceFlags := by
    constructor
    · intro eq
      rw [eq]
      exact ⟨rfl, rfl⟩
    · rintro ⟨sameType, sameFlags⟩
      obtain ⟨aceType, aceFlags, accessMask, who⟩ := ace
      simp only [NFS4Ace.converted] at sameType sameFlags ⊢
      rw [sameType, sameFlags]
  rw [split, converted_flags_iff, NFS4Ace.Unaudited, and_assoc, and_assoc, ← type]
  rfl

section Acl

variable {fromAces : List NFS4Ace → Finset NFS4ACLFlag → NFS4ACL}

theorem nfs4aclDictToObj_nfs4aclObjToDict (isTrivial : NFS4ACL → Bool) (acl : NFS4ACL)
    (uid gid : Int) (simplified : Bool) :
    nfs4aclDictToObj fromAces (nfs4aclObjToDict isTrivial acl uid gid simplified).acl
        (some (nfs4aclObjToDict isTrivial acl uid gid simplified).aclflags) =
      .ok (fromAces (acl.aces.map NFS4Ace.converted) acl.aclFlags) := by
  have entries : (acl.aces.map (nfs4aceObjToDict simplified)).mapM nfs4aceDictToObj =
      .ok (acl.aces.map NFS4Ace.converted) := by
    induction acl.aces with
    | nil => rfl
    | cons ace rest ih =>
      rw [map_cons, mapM_cons, nfs4aceDictToObj_nfs4aceObjToDict, ih]
      rfl
  have flags : dictToObj NFS4ACLFlag.name aclFlagNames
      (objToFullDict NFS4ACLFlag.name aclFlagNames acl.aclFlags) = acl.aclFlags := by
    rw [dictToObj_objToFullDict aclFlag_name_injective]
    refine Finset.filter_true_of_mem fun n _ => ?_
    cases n <;> decide
  simp only [nfs4aclDictToObj, nfs4aclObjToDict, entries, Option.getD_some, flags]
  rfl

/-- No DENY entry stands behind an ALLOW entry. -/
def NFS4ACL.Canonical (acl : NFS4ACL) : Prop :=
  acl.aces.Pairwise fun first second => second.aceType = .deny → first.aceType = .deny

instance (acl : NFS4ACL) : Decidable acl.Canonical :=
  inferInstanceAs (Decidable (Pairwise _ _))

/-- As `truenas_os` documents it: DENY entries before ALLOW entries, with the order within each
group kept. -/
def Canonicalizes (fromAces : List NFS4Ace → Finset NFS4ACLFlag → NFS4ACL) : Prop :=
  ∀ aces aclFlags, (∀ ace ∈ aces, ace.Unaudited) → fromAces aces aclFlags =
    ⟨aces.filter (fun ace => decide (ace.aceType = .deny)) ++
      aces.filter (fun ace => decide (ace.aceType = .allow)), aclFlags⟩

theorem filter_append_filter_eq_self_iff {α : Type*} {p : α → Bool} {list : List α} :
    list.filter p ++ list.filter (fun x => !p x) = list ↔
      list.Pairwise fun first second => p second → p first := by
  induction list with
  | nil => simp
  | cons first rest ih =>
    rw [pairwise_cons, ← ih]
    cases here : p first with
    | true => simp [here]
    | false =>
      rw [filter_cons_of_neg (by simp [here]), filter_cons_of_pos (by simp [here])]
      cases kept : rest.filter p with
      | nil =>
        have none := filter_eq_nil_iff.mp kept
        have all : rest.filter (fun x => !p x) = rest :=
          filter_eq_self.mpr fun x mem => by simpa using none x mem
        simp only [nil_append, all, Bool.false_eq_true, imp_false, and_true, true_iff]
        exact none
      | cons next later =>
        obtain ⟨mem, taken⟩ := mem_filter.mp (kept ▸ mem_cons_self : next ∈ rest.filter p)
        constructor
        · intro eq
          obtain ⟨rfl, -⟩ := cons.inj eq
          cases here.symm.trans taken
        · exact fun both => absurd (both.1 next mem taken) Bool.false_ne_true

end Acl

def denyFirst (aces : List NFS4Ace) (aclFlags : Finset NFS4ACLFlag) : NFS4ACL :=
  ⟨aces.filter (fun ace => decide (ace.aceType = .deny)) ++
    aces.filter (fun ace => decide (ace.aceType ≠ .deny)), aclFlags⟩

theorem canonicalizes_denyFirst : Canonicalizes denyFirst := by
  intro aces aclFlags unaudited
  rw [denyFirst]
  congr 2
  refine filter_congr fun ace inside => ?_
  rcases (unaudited ace inside).1 with type | type <;> simp [type]

def ownerEntry : NFS4Ace :=
  ⟨.allow, {.fileInherit, .directoryInherit}, basicFull, ⟨.owner, -1, fun _ => rfl⟩⟩

def deniedGroup : NFS4Ace :=
  ⟨.deny, {.identifierGroup, .inheritOnly}, {.delete, .writeAcl}, ⟨.named, 3000, nofun⟩⟩

def sharedAcl : NFS4ACL := ⟨[deniedGroup, ownerEntry], {.isProtected}⟩

def ownerFirstAcl : NFS4ACL := ⟨[ownerEntry, deniedGroup], {.isProtected}⟩

end TruenasMiddleware.Filesystem
