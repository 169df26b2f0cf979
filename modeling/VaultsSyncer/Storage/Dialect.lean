import VaultsSyncer.GoStd.Strings

/-! The database back ends (`storage/db.go`): which of them `openDB` opens, and how each writes the
    parameters of a statement. A driver finds the parameters by their markers in the text. -/

namespace VaultsSyncer

open GoStd

/-- The name of a database backend. -/
abbrev DBType := String

namespace DBType

def sqlite : DBType := "sqlite"

def postgres : DBType := "postgres"

def mssql : DBType := "mssql"

end DBType

structure DBConfig where
  type : DBType
  /-- The connection string used for postgres and mssql. -/
  dsn : String := ""
  /-- The file path used for sqlite. -/
  path : String := ""

/-- A driver and the data source it was opened with. -/
structure Connection where
  driver : String
  source : String
  deriving DecidableEq

/-- Opens a connection; `sqlOpen` is `sql.Open`, nil where it returns no error. -/
def openDB (sqlOpen : String → String → Option GoError) (cfg : DBConfig) : Except GoError Connection :=
  if cfg.type = DBType.sqlite then
    let dsn := if cfg.path = "" then "sync.db" else cfg.path
    match sqlOpen "sqlite3" (dsn ++ "?_journal_mode=WAL&_foreign_keys=on") with
    | some err => .error (.wrap "storage: failed to open SQLite database: " err)
    | none => .ok ⟨"sqlite3", dsn ++ "?_journal_mode=WAL&_foreign_keys=on"⟩
  else if cfg.type = DBType.postgres then
    if cfg.dsn = "" then .error (.new "storage: DB_DSN is required for postgres backend")
    else
      match sqlOpen "postgres" cfg.dsn with
      | some err => .error (.wrap "storage: failed to open PostgreSQL database: " err)
      | none => .ok ⟨"postgres", cfg.dsn⟩
  else if cfg.type = DBType.mssql then
    if cfg.dsn = "" then .error (.new "storage: DB_DSN is required for mssql backend")
    else
      match sqlOpen "sqlserver" cfg.dsn with
      | some err => .error (.wrap "storage: failed to open MSSQL database: " err)
      | none => .ok ⟨"sqlserver", cfg.dsn⟩
  else
    .error (.new ("storage: unsupported DB_TYPE " ++ goQuote cfg.type ++
      "; must be sqlite, postgres, or mssql"))

/-- Returns the parameter placeholder for the given DB type and position. -/
def placeholder (dbType : DBType) (n : ℕ) : String :=
  if dbType = DBType.postgres then "$" ++ toString n
  else if dbType = DBType.mssql then "@p" ++ toString n
  else "?"

/-- A type that was opened is one of three. -/
theorem openDB_type {sqlOpen : String → String → Option GoError} {cfg : DBConfig} {conn : Connection}
    (h : openDB sqlOpen cfg = .ok conn) :
    cfg.type = DBType.sqlite ∨ cfg.type = DBType.postgres ∨ cfg.type = DBType.mssql := by
  by_contra hnone
  rw [not_or, not_or] at hnone
  obtain ⟨hsqlite, hpostgres, hmssql⟩ := hnone
  rw [openDB, if_neg hsqlite, if_neg hpostgres, if_neg hmssql] at h
  cases h

/-! ### Markers -/

/-- A parameter marker in the text of a statement. -/
inductive Marker where
  | question
  | dollar (n : ℕ)
  | atP (n : ℕ)
  deriving DecidableEq

/-- The number that a text starts with. -/
def leadingNumber (cs : List Char) : ℕ :=
  (cs.takeWhile Char.isDigit).foldl (fun n c => 10 * n + (c.toNat - '0'.toNat)) 0

/-- The markers of a text, in order. -/
def markers : List Char → List Marker
  | [] => []
  | c :: cs =>
    if c = '?' then .question :: markers cs
    else if c = '$' then .dollar (leadingNumber cs) :: markers cs
    else if c = '@' ∧ cs.head? = some 'p' then .atP (leadingNumber cs.tail) :: markers cs
    else markers cs

/-- How a marker is written. -/
def Marker.text : Marker → String
  | .question => "?"
  | .dollar n => "$" ++ toString n
  | .atP n => "@p" ++ toString n

/-- The marker has the form that the drivers of the type take. -/
def Marker.Fits (dbType : DBType) : Marker → Prop
  | .question => dbType ≠ DBType.postgres ∧ dbType ≠ DBType.mssql
  | .dollar _ => dbType = DBType.postgres
  | .atP _ => dbType = DBType.mssql

instance (dbType : DBType) : DecidablePred (Marker.Fits dbType)
  | .question => inferInstanceAs (Decidable (_ ∧ _))
  | .dollar _ => inferInstanceAs (Decidable (_ = _))
  | .atP _ => inferInstanceAs (Decidable (_ = _))

/-- That form is the one `placeholder` writes. -/
theorem Marker.fits_iff (dbType : DBType) (m : Marker) :
    m.Fits dbType ↔ ∃ n, m.text = placeholder dbType n := by
  have hne : DBType.mssql ≠ DBType.postgres := by decide
  have hhead : ∀ {a b : String}, a = b → a.toList.head? = b.toList.head? := fun h => h ▸ rfl
  constructor
  · cases m with
    | question => exact fun h => ⟨0, by rw [placeholder, if_neg h.1, if_neg h.2, Marker.text]⟩
    | dollar n =>
      rintro rfl
      exact ⟨n, rfl⟩
    | atP n =>
      rintro rfl
      exact ⟨n, by rw [placeholder, if_neg hne, if_pos rfl, Marker.text]⟩
  · rintro ⟨n, h⟩
    have h := hhead h
    rw [placeholder] at h
    cases m with
    | question =>
      split_ifs at h with hpostgres hmssql
      · simp [Marker.text] at h
      · simp [Marker.text] at h
      · exact ⟨hpostgres, hmssql⟩
    | dollar n =>
      split_ifs at h with hpostgres hmssql
      · exact hpostgres
      · simp [Marker.text] at h
      · simp [Marker.text] at h
    | atP n =>
      split_ifs at h with hpostgres hmssql
      · simp [Marker.text] at h
      · exact hmssql
      · simp [Marker.text] at h

/-- The driver of the type takes the statement. -/
def Takes (dbType : DBType) (text : String) : Prop := ∀ m ∈ markers text.toList, m.Fits dbType

instance (dbType : DBType) : DecidablePred (Takes dbType) :=
  fun text => inferInstanceAs (Decidable (∀ m ∈ markers text.toList, m.Fits dbType))

end VaultsSyncer
