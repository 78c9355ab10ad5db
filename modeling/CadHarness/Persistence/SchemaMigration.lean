import CadHarness.Lib.PythonText
import CadHarness.Lib.SortBy
import CadHarness.Lib.Trace
import Mathlib.Data.Char
import Mathlib.Data.Prod.Lex

/-!
# Upgrades of the schema

`cad_harness.persistence.schema_migration` on the texts and rows that SQLite returns. Case folding, upper case and `repr`
are parameters, and what Alembic and SQLite do are the operations of a program.
-/

namespace CadHarness.Persistence
open CadHarness.Lib
open CadHarness.Lib.Python (isSpace)

/-- What is raised. -/
inductive SchemaError where
  | databaseSchemaError (message : String)
  | indexError
  | other
  deriving DecidableEq

/-- `_LEGACY_BACKFILL_COLUMNS` -/
def legacyBackfillColumns : List (String × String) :=
  [("effort_records", "pilot_run_id"), ("operation_metrics", "pilot_run_id")]

/-! ## Texts -/

def splitFrom (word : List Char) : List Char → List (List Char)
  | [] => if word = [] then [] else [word]
  | c :: text =>
      if isSpace c then if word = [] then splitFrom [] text else word :: splitFrom [] text
      else splitFrom (word ++ [c]) text

/-- `value.split()` -/
def split (text : List Char) : List (List Char) := splitFrom [] text

/-- `_normalize_ddl` of a text -/
def normalizeText (text : List Char) : List Char := [' '].intercalate (split text)

/-- `_normalize_ddl` -/
def normalizeDdl (value : Option (List Char)) : Option (List Char) := value.map normalizeText

/-- The text after a word in front of it, in any case. -/
def afterWord (word text : List Char) : Option (List Char) :=
  if (text.take word.length).map Char.toLower = word.map Char.toLower then some (text.drop word.length) else none

/-- The text after one or more spaces in front of it. -/
def afterSpaces : List Char → Option (List Char)
  | [] => none
  | c :: text => if isSpace c then some (text.dropWhile isSpace) else none

/-- `(?=\s|$)` -/
def atEndOfWord : List Char → Bool
  | [] => true
  | c :: _ => isSpace c

/-- How long the match of `\s+DEFAULT\s+'legacy'(?=\s|$)` in front of a text is. -/
def legacyDefaultLength (text : List Char) : Option Nat := do
  let keyword ← afterSpaces text
  let spaces ← afterWord "DEFAULT".toList keyword
  let value ← afterSpaces spaces
  let rest ← afterWord "'legacy'".toList value
  if atEndOfWord rest then some (text.length - rest.length) else none

/-- `_LEGACY_BACKFILL_DEFAULT.sub("", text)`, where so many characters of a match are still to be left out. -/
def substituteFrom : Nat → List Char → List Char
  | _, [] => []
  | skip + 1, _ :: text => substituteFrom skip text
  | 0, c :: text =>
      match legacyDefaultLength (c :: text) with
      | some length => substituteFrom (length - 1) text
      | none => c :: substituteFrom 0 text

def substituteLegacyDefault (text : List Char) : List Char := substituteFrom 0 text

/-! ## Table definitions -/

/-- The loop of `_split_table_definition` from a character on, with the quote, the depth, the item and the definitions
so far. -/
def splitLoop : Option Char → Nat → List Char → List (List Char) → List Char →
    Except SchemaError (List (List Char) × List Char)
  | _, _, _, _, [] => .error (.databaseSchemaError "A table definition has an unbalanced column list")
  | some quote, depth, item, definitions, character :: text =>
      if quote = ']' then
        if character = ']' then splitLoop none depth (item ++ [character]) definitions text
        else splitLoop (some quote) depth (item ++ [character]) definitions text
      else if character = quote then
        match text with
        | [] => splitLoop none depth (item ++ [character]) definitions []
        | next :: rest =>
            if next = quote then splitLoop (some quote) depth (item ++ [character, next]) definitions rest
            else splitLoop none depth (item ++ [character]) definitions (next :: rest)
      else splitLoop (some quote) depth (item ++ [character]) definitions text
  | none, depth, item, definitions, character :: text =>
      if character ∈ ['\'', '"', '`'] then splitLoop (some character) depth (item ++ [character]) definitions text
      else if character = '[' then splitLoop (some ']') depth (item ++ [character]) definitions text
      else if character = '(' then splitLoop none (depth + 1) (item ++ [character]) definitions text
      else if character = ')' then
        if depth - 1 = 0 then .ok (definitions ++ [item], text)
        else splitLoop none (depth - 1) (item ++ [character]) definitions text
      else if character = ',' ∧ depth = 1 then splitLoop none depth [] (definitions ++ [item]) text
      else splitLoop none depth (item ++ [character]) definitions text

/-- `_split_table_definition` -/
def splitTableDefinition (ddl : List Char) : Except SchemaError (List (List Char) × List Char) :=
  match ddl.dropWhile (· ≠ '(') with
  | [] => .error (.databaseSchemaError "A table definition has no column list")
  | _ :: text => splitLoop none 1 [] [] text

/-- A word without the quotes around it: `strip('"`[]')`. -/
def unquoted (word : List Char) : List Char :=
  (word.dropWhile (· ∈ ['"', '`', '[', ']'])).rdropWhile (· ∈ ['"', '`', '[', ']'])

/-- The loop of `_canonical_table_ddl` at one definition. -/
def canonicalDefinition (tableName : String) (definition : List Char) : Except SchemaError (List Char) :=
  let normalized := normalizeText definition
  match split normalized with
  | [] => .error .indexError
  | first :: _ =>
      if legacyBackfillColumns.contains (tableName, String.ofList (unquoted first)) then
        .ok (normalizeText (substituteLegacyDefault normalized))
      else .ok normalized

/-- `_canonical_table_ddl` -/
def canonicalTableDdl (casefold : List Char → List Char) (tableName : String) :
    Option (List Char) → Except SchemaError (Option (List (List Char) × List Char))
  | none => .ok none
  | some ddl => do
      let (definitions, suffix) ← splitTableDefinition ddl
      let canonicalDefinitions ← definitions.mapM (canonicalDefinition tableName)
      return some (sortBy (fun item => toLex (casefold item, item)) canonicalDefinitions, normalizeText suffix)

/-! ## Structures -/

/-- What of a row of `PRAGMA table_xinfo` is read. -/
structure ColumnRow where
  name : List Char
  type : List Char
  notNull : Int
  default : Option (List Char)
  primaryKey : Int
  hidden : Int
  deriving DecidableEq

/-- A row of `PRAGMA foreign_key_list`, with its texts as `str` gives them. -/
structure ForeignKeyRow where
  id : Int
  seq : Int
  table : List Char
  fromColumn : List Char
  toColumn : List Char
  onUpdate : List Char
  onDelete : List Char
  matching : List Char

structure ForeignKey where
  table : List Char
  onUpdate : List Char
  onDelete : List Char
  matching : List Char
  columns : List (List Char × List Char)
  deriving DecidableEq

/-- What of a row of `PRAGMA index_xinfo` is read. -/
structure IndexColumnRow where
  seqno : Int
  name : Option (List Char)
  descending : Int
  collation : Option (List Char)
  key : Int

structure IndexRow where
  storedName : Option (List Char)
  unique : Int
  origin : List Char
  isPartial : Int
  columns : List IndexColumnRow
  sql : Option (List Char)

structure CanonicalIndex where
  storedName : Option (List Char)
  unique : Int
  origin : List Char
  isPartial : Int
  keyColumns : List (Option (List Char) × Int × Option (List Char))
  sql : Option (List Char)
  deriving DecidableEq

/-- One entry of an inspected structure. Texts of SQL have been normalized. -/
inductive StructureItem where
  | table (name : String) (columns : List ColumnRow) (foreignKeys : List ForeignKeyRow) (indexes : List IndexRow)
      (sql : Option (List Char))
  | schemaObject (type name table : String) (sql : Option (List Char))

inductive SemanticItem where
  | table (name : String) (columns : List ColumnRow) (foreignKeys : List ForeignKey) (indexes : List CanonicalIndex)
      (ddl : Option (List (List Char) × List Char))
  | schemaObject (type name table : String) (sql : Option (List Char))
  deriving DecidableEq

/-- The functions of Python on texts and records. -/
structure PythonText where
  casefold : List Char → List Char
  upper : List Char → List Char
  reprForeignKey : ForeignKey → List Char
  reprIndex : CanonicalIndex → List Char

/-- `_normalize_default` -/
def normalizeDefault (tableName columnName : String) (value : Option (List Char)) : Option (List Char) :=
  if legacyBackfillColumns.contains (tableName, columnName) ∧ value ∈ [none, some "'legacy'".toList] then none else value

/-- `_canonical_foreign_keys` -/
def canonicalForeignKeys (python : PythonText) (rows : List ForeignKeyRow) : List ForeignKey :=
  let grouped := (rows.map (·.id)).dedup.map fun id => sortBy (·.seq) (rows.filter (·.id = id))
  sortBy python.reprForeignKey (grouped.filterMap fun ordered =>
    ordered.head?.map fun first =>
      { table := first.table
        onUpdate := first.onUpdate
        onDelete := first.onDelete
        matching := first.matching
        columns := ordered.map fun row => (row.fromColumn, row.toColumn) })

/-- `_canonical_index` -/
def canonicalIndex (index : IndexRow) : CanonicalIndex where
  storedName := index.storedName
  unique := index.unique
  origin := index.origin
  isPartial := index.isPartial
  keyColumns := ((sortBy (·.seqno) index.columns).filter (·.key = 1)).map fun row =>
    (row.name, row.descending, row.collation)
  sql := index.sql

def canonicalColumn (python : PythonText) (tableName : String) (row : ColumnRow) : ColumnRow where
  name := row.name
  type := python.upper (normalizeText row.type)
  notNull := row.notNull
  default := normalizeDefault tableName (String.ofList row.name) row.default
  primaryKey := row.primaryKey
  hidden := row.hidden

/-- The loop of `_semantic_structure` at one entry. The columns of a table have different names. -/
def semanticItem (python : PythonText) : StructureItem → Except SchemaError SemanticItem
  | .schemaObject type name table sql => .ok (.schemaObject type name table sql)
  | .table name columns foreignKeys indexes sql => do
      let ddl ← canonicalTableDdl python.casefold name sql
      return .table name (sortBy (·.name) (columns.map (canonicalColumn python name)))
        (canonicalForeignKeys python foreignKeys) (sortBy python.reprIndex (indexes.map canonicalIndex)) ddl

/-- `_semantic_structure` -/
def semanticStructure (python : PythonText) (items : List StructureItem) : Except SchemaError (List SemanticItem) :=
  items.mapM (semanticItem python)

/-! ## Upgrades -/

structure DatabaseInspection where
  revision : Option String
  hasVersionTable : Bool
  structureItems : List StructureItem
  semanticItems : List SemanticItem

def DatabaseInspection.isEmpty (inspection : DatabaseInspection) : Bool :=
  inspection.structureItems.isEmpty && !inspection.hasVersionTable

/-- The revision, the version table and the structure that `_inspect_database` finds in a file. -/
abbrev Found := Option String × Bool × List StructureItem

inductive SchemaOp where
  | inspect
  | headRevision
  | inspectReference (revision : String)
  | upgrade (revision : String)
  | stamp (revision : String)

abbrev SchemaSig : Sig where
  Op := SchemaOp
  Res
    | .inspect => Except SchemaError Found
    | .headRevision => Except SchemaError String
    | .inspectReference _ => Except SchemaError Found
    | .upgrade _ => Except SchemaError Unit
    | .stamp _ => Except SchemaError Unit

abbrev SchemaM := ExceptT SchemaError (Prog SchemaSig)

/-- An operation that may raise. -/
def callSchema {α : Type} (o : SchemaOp) (read : SchemaSig.Res o → Except SchemaError α) : SchemaM α :=
  ExceptT.mk (Prog.op o fun answer => .ret (read answer))

/-- The inspection of what was found in a file. -/
def inspectionOf (python : PythonText) (found : Found) : Except SchemaError DatabaseInspection := do
  let semanticItems ← semanticStructure python found.2.2
  return { revision := found.1, hasVersionTable := found.2.1, structureItems := found.2.2, semanticItems }

/-- `_inspect_database` -/
def inspectDatabase (python : PythonText) : SchemaM DatabaseInspection :=
  callSchema .inspect fun answer => answer >>= inspectionOf python

/-- `_head_revision` -/
def headRevision : SchemaM String := callSchema .headRevision id

/-- `_reference_inspection`, and what `_require_semantic_structure` makes of an exception in it -/
def referenceInspection (python : PythonText) (revision : String) : SchemaM DatabaseInspection :=
  callSchema (.inspectReference revision) fun answer =>
    match answer >>= inspectionOf python with
    | .ok inspection => .ok inspection
    | .error (.databaseSchemaError message) => .error (.databaseSchemaError message)
    | .error _ => .error (.databaseSchemaError
        s!"Cannot build the trusted Alembic schema for revision {revision}")

/-- `_require_semantic_structure` -/
def requireSemanticStructure (python : PythonText) (inspection : DatabaseInspection) (expectedRevision : String) :
    SchemaM Unit := do
  let expected ← referenceInspection python expectedRevision
  if inspection.semanticItems ≠ expected.semanticItems then
    throw (.databaseSchemaError ("Database structure does not semantically match its trusted Alembic revision; " ++
      "refusing to stamp or migrate it"))

/-- `assert_database_current` -/
def assertDatabaseCurrent (python : PythonText) : SchemaM String := do
  let inspection ← inspectDatabase python
  let head ← headRevision
  if inspection.hasVersionTable = false ∨ inspection.revision ≠ some head then
    throw (.databaseSchemaError s!"Database revision is not current; expected {head}")
  requireSemanticStructure python inspection head
  return head

/-- `_UNVERSIONED_BASELINE` -/
def UNVERSIONED_BASELINE : String := "e6b3f91a2c40"

def upgrade (revision : String) : SchemaM Unit := callSchema (.upgrade revision) id

def stampAndUpgrade (stampedRevision : String) : SchemaM Unit := do
  callSchema (.stamp stampedRevision) id
  callSchema (.upgrade "head") id

/-- `upgrade_database` -/
def upgradeDatabase (python : PythonText) : SchemaM String := do
  let inspection ← inspectDatabase python
  let head ← headRevision
  if inspection.isEmpty then
    upgrade "head"
    assertDatabaseCurrent python
  else if inspection.hasVersionTable then
    match inspection.revision with
    | none => throw .other
    | some revision => do
        requireSemanticStructure python inspection revision
        upgrade "head"
        assertDatabaseCurrent python
  else
    requireSemanticStructure python inspection UNVERSIONED_BASELINE
    stampAndUpgrade UNVERSIONED_BASELINE
    let current ← assertDatabaseCurrent python
    if current ≠ head then throw (.databaseSchemaError s!"Database stopped at unexpected revision {current}")
    return current

end CadHarness.Persistence
