import Mathlib

/-!
# Names and relations of a SQL database

A word of a statement is folded to lower case and a quoted name is taken as it
is; both are cut to the length of a name.  Only words, quoted names and single
characters are told apart, so a reader looks at a statement up to its first
literal.  The commands are those that leave alone what exists.
-/

namespace SqlCatalog

/-! ## Folding -/

theorem toLower_cases (c : Char) :
    c.toLower = c ∨ c.toLower.isLower = true := by
  unfold Char.toLower
  split_ifs with hupper
  · right
    have hle := UInt32.le_iff_toNat_le.mp hupper.2
    have hge := UInt32.le_iff_toNat_le.mp hupper.1
    simp [Char.isLower, UInt32.le_iff_toNat_le, UInt32.toNat_add] at hle hge ⊢
    omega
  · exact .inl rfl

theorem toLower_of_isLower {c : Char} (hlower : c.isLower = true) :
    c.toLower = c := by
  unfold Char.toLower
  rw [dif_neg]
  rintro ⟨-, hle⟩
  have hnat := UInt32.le_iff_toNat_le.mp hle
  simp [Char.isLower, UInt32.le_iff_toNat_le] at hlower hnat
  omega

theorem toLower_toLower (c : Char) : c.toLower.toLower = c.toLower := by
  rcases toLower_cases c with hsame | hlower
  · rw [hsame, hsame]
  · exact toLower_of_isLower hlower

/-! ## Tokens -/

inductive Token where
  | word (text : List Char)
  | name (text : List Char)
  | symbol (c : Char)
  deriving DecidableEq

/-- Where the reader stands: behind a quotation mark in a name it does not know
yet whether the name is over. -/
inductive Mode where
  | between
  | word (read : List Char)
  | name (read : List Char)
  | quotation (read : List Char)
  deriving DecidableEq

def isPart (c : Char) : Bool := c.isAlphanum || c = '_' || c = '$'

def opened (c : Char) : List Token × Mode :=
  if isPart c then ([], .word [c.toLower])
  else if c = '"' then ([], .name [])
  else if c.isWhitespace then ([], .between)
  else ([.symbol c], .between)

def step : Mode → Char → List Token × Mode
  | .between, c => opened c
  | .word read, c =>
      if isPart c then ([], .word (read ++ [c.toLower]))
      else (.word read :: (opened c).1, (opened c).2)
  | .name read, c =>
      if c = '"' then ([], .quotation read) else ([], .name (read ++ [c]))
  | .quotation read, c =>
      if c = '"' then ([], .name (read ++ ['"']))
      else (.name read :: (opened c).1, (opened c).2)

def run : Mode → List Char → List Token × Mode
  | mode, [] => ([], mode)
  | mode, c :: rest =>
      ((step mode c).1 ++ (run (step mode c).2 rest).1,
        (run (step mode c).2 rest).2)

def finish : Mode → List Token
  | .between | .name _ => []
  | .word read => [.word read]
  | .quotation read => [.name read]

def scanFrom (mode : Mode) (text : List Char) : List Token :=
  (run mode text).1 ++ finish (run mode text).2

def scan (text : List Char) : List Token := scanFrom .between text

theorem scanFrom_append (mode : Mode) (first second : List Char) :
    scanFrom mode (first ++ second) =
      (run mode first).1 ++ scanFrom (run mode first).2 second := by
  induction first generalizing mode with
  | nil => rfl
  | cons c first ih =>
      have hrest := ih (step mode c).2
      simp only [scanFrom, List.cons_append, run, List.append_assoc] at hrest ⊢
      rw [hrest]

theorem run_word {text : List Char} (hpart : ∀ c ∈ text, isPart c)
    (read : List Char) :
    run (.word read) text = ([], .word (read ++ text.map Char.toLower)) := by
  induction text generalizing read with
  | nil => simp [run]
  | cons c text ih =>
      have hstep : step (.word read) c = ([], .word (read ++ [c.toLower])) :=
        if_pos (hpart c List.mem_cons_self)
      rw [run, hstep, ih fun d hd => hpart d (List.mem_cons_of_mem c hd)]
      simp

theorem run_between {text : List Char} (hpart : ∀ c ∈ text, isPart c)
    (hne : text ≠ []) :
    run .between text = ([], .word (text.map Char.toLower)) := by
  cases text with
  | nil => exact absurd rfl hne
  | cons c text =>
      have hopened : step .between c = ([], .word [c.toLower]) :=
        if_pos (hpart c List.mem_cons_self)
      rw [run, hopened, run_word fun d hd => hpart d (List.mem_cons_of_mem c hd)]
      rfl

theorem run_name {text : List Char} (hquote : '"' ∉ text) (read : List Char) :
    run (.name read) text = ([], .name (read ++ text)) := by
  induction text generalizing read with
  | nil => simp [run]
  | cons c text ih =>
      rw [List.mem_cons, not_or] at hquote
      have hstep : step (.name read) c = ([], .name (read ++ [c])) :=
        if_neg (Ne.symm hquote.1)
      rw [run, hstep, ih hquote.2]
      simp

theorem scan_append_of_run {first : List Char} {tokens : List Token}
    (hrun : run .between first = (tokens, .between)) (rest : List Char) :
    scan (first ++ rest) = tokens ++ scan rest := by
  rw [scan, scanFrom_append, hrun]
  rfl

/-- A word is closed by any character that is no part of one. -/
theorem scan_word_append {text : List Char} {c : Char}
    (hpart : ∀ c ∈ text, isPart c) (hne : text ≠ [])
    (hc : isPart c = false) (rest : List Char) :
    scan (text ++ c :: rest) =
      .word (text.map Char.toLower) :: scan (c :: rest) := by
  have hstep : step (.word (text.map Char.toLower)) c =
      (.word (text.map Char.toLower) :: (opened c).1, (opened c).2) := by
    simp [step, hc]
  rw [scan, scanFrom_append, run_between hpart hne, scan, scanFrom, scanFrom,
    run, run, hstep]
  rfl

theorem scanFrom_name_append {text : List Char} {c : Char}
    (hquote : '"' ∉ text) (hc : c ≠ '"') (rest : List Char) :
    scanFrom (.name []) (text ++ '"' :: c :: rest) =
      .name text :: scan (c :: rest) := by
  have hopen : step (.name text) '"' = ([], .quotation text) := rfl
  have hclose : step (.quotation text) c =
      (.name text :: (opened c).1, (opened c).2) := if_neg hc
  rw [scanFrom_append, run_name hquote, List.nil_append, List.nil_append,
    scan, scanFrom, scanFrom, run, hopen, run, hclose, run]
  rfl

/-! ## Names -/

structure Place where
  schema : List Char
  name : List Char
  deriving DecidableEq

def nameLength : ℕ := 63

def truncate (text : List Char) : List Char := text.take nameLength

/-- The words that cannot stand for a name by themselves. -/
def reservedWords : List (List Char) := [
  "all", "analyse", "analyze", "and", "any", "array", "as", "asc",
  "asymmetric", "authorization", "binary", "both", "case", "cast", "check",
  "collate", "collation", "column", "concurrently", "constraint", "create",
  "cross", "current_catalog", "current_date", "current_role",
  "current_schema", "current_time", "current_timestamp", "current_user",
  "default", "deferrable", "desc", "distinct", "do", "else", "end", "except",
  "false", "fetch", "for", "foreign", "freeze", "from", "full", "grant",
  "group", "having", "ilike", "in", "initially", "inner", "intersect", "into",
  "is", "isnull", "join", "lateral", "leading", "left", "like", "limit",
  "localtime", "localtimestamp", "natural", "not", "notnull", "null",
  "offset", "on", "only", "or", "order", "outer", "overlaps", "placing",
  "primary", "references", "returning", "right", "select", "session_user",
  "similar", "some", "symmetric", "table", "tablesample", "then", "to",
  "trailing", "true", "union", "unique", "user", "using", "variadic",
  "verbose", "when", "where", "window", "with"].map String.toList

def startsName (text : List Char) : Bool :=
  text.head?.any fun c => c.isAlpha || c = '_'

/-- A name by itself. -/
def readName : Token → Option (List Char)
  | .word text =>
      if startsName text && !reservedWords.contains text then some (truncate text)
      else none
  | .name text => if text.isEmpty then none else some (truncate text)
  | .symbol _ => none

/-- A name behind a dot, which may be any word. -/
def readLabel : Token → Option (List Char)
  | .word text => if startsName text then some (truncate text) else none
  | .name text => if text.isEmpty then none else some (truncate text)
  | .symbol _ => none

def readPlace : List Token → Option (Place × List Token)
  | schema :: .symbol '.' :: name :: rest => do
      some (⟨← readName schema, ← readLabel name⟩, rest)
  | _ => none

/-! ## Commands -/

structure Column where
  name : List Char
  type : List Char
  deriving DecidableEq

inductive Command where
  | createTable (place : Place) (columns : List Column)
      (tablespace : List Char)
  | createIndex (name : List Char) (place : Place) (method : List Char)
      (column : List Char) (opclass : Option (List Char))
      (tablespace : List Char)
  deriving DecidableEq

inductive ColumnMode where
  | skip
  | start
  | named (name : List Char)

/-- The columns of a table from its opening bracket on: what two words begin,
unless the first is the key word of a constraint. -/
def readColumns : ℕ → ColumnMode → List Token → List Column
  | _, _, [] => []
  | depth, _, .symbol '(' :: rest =>
      readColumns (depth + 1) (if depth = 0 then .start else .skip) rest
  | depth, _, .symbol ',' :: rest =>
      readColumns depth (if depth = 1 then .start else .skip) rest
  | depth, _, .symbol ')' :: rest => readColumns (depth - 1) .skip rest
  | depth, .start, .word name :: rest =>
      readColumns depth
        (if name = "primary".toList then .skip else .named (truncate name)) rest
  | depth, .named name, .word type :: rest =>
      ⟨name, type⟩ :: readColumns depth .skip rest
  | depth, _, _ :: rest => readColumns depth .skip rest

def readTablespace : List Token → Option (List Char)
  | [.word key, name] =>
      if key = "tablespace".toList then readName name else none
  | _ => none

def readTable (tokens : List Token) : Option Command := do
  let (place, rest) ← readPlace tokens
  some (.createTable place (readColumns 0 .skip rest)
    (← readTablespace (rest.drop (rest.length - 2))))

def readMethod (name : List Char) (place : Place) :
    List Token → Option Command
  | .word key :: .word method :: .symbol '(' :: .word column ::
      .symbol ')' :: rest => do
      if key ≠ "using".toList then none
      some (.createIndex name place method column none (← readTablespace rest))
  | .word key :: .word method :: .symbol '(' :: .word column ::
      .word opclass :: .symbol ')' :: rest => do
      if key ≠ "using".toList then none
      some (.createIndex name place method column (some opclass)
        (← readTablespace rest))
  | _ => none

def readIndex : List Token → Option Command
  | name :: .word key :: rest => do
      if key ≠ "on".toList then none
      let (place, rest) ← readPlace rest
      readMethod (← readName name) place rest
  | _ => none

def createTableWords : List Token :=
  ["create", "table", "if", "not", "exists"].map fun key => .word key.toList

def createIndexWords : List Token :=
  ["create", "index", "if", "not", "exists"].map fun key => .word key.toList

def readCommand (tokens : List Token) : Option Command :=
  match tokens.dropPrefix? createTableWords with
  | some rest => readTable rest
  | none => (tokens.dropPrefix? createIndexWords).bind readIndex

/-- The commands of a text, between semicolons. -/
def readCommands (text : List Char) : Option (List Command) :=
  (((scan text).splitOn (.symbol ';')).filter (· ≠ [])).mapM readCommand

theorem readCommands_cons {text rest : List Char} {tokens : List Token}
    {command : Command} (hscan : scan text = tokens ++ .symbol ';' :: scan rest)
    (hplain : .symbol ';' ∉ tokens) (hread : readCommand tokens = some command) :
    readCommands text = (readCommands rest).map (command :: ·) := by
  have hne : tokens ≠ [] := by
    rintro rfl
    cases hread
  unfold readCommands
  rw [hscan, List.splitOn_append_cons_self_of_not_mem hplain,
    List.filter_cons_of_pos (by simpa using hne), List.mapM_cons, hread]
  cases (((scan rest).splitOn (.symbol ';')).filter (· ≠ [])).mapM readCommand <;>
    rfl

/-! ## Relations -/

inductive Relation where
  | table (columns : List Column)
  | index (place : Place) (method column : List Char)
  deriving DecidableEq

structure Catalog where
  schemas : List (List Char)
  tablespaces : List (List Char)
  relations : Place → Option Relation

def Catalog.add (catalog : Catalog) (place : Place) (relation : Relation) :
    Catalog :=
  { catalog with
    relations := Function.update catalog.relations place (some relation) }

@[simp] theorem Catalog.add_relations_self (catalog : Catalog) (place : Place)
    (relation : Relation) :
    (catalog.add place relation).relations place = some relation :=
  Function.update_self place _ _

theorem Catalog.add_relations_of_ne (catalog : Catalog) {place other : Place}
    (hne : other ≠ place) (relation : Relation) :
    (catalog.add place relation).relations other = catalog.relations other :=
  Function.update_of_ne hne _ _

/-- Whether an index can be made on a column. -/
def Column.Takes (column : Column) (name : List Char)
    (opclass : Option (List Char)) : Prop :=
  column.name = name ∧
    (opclass = some "jsonb_ops".toList → column.type = "jsonb".toList)

instance (column : Column) (name : List Char)
    (opclass : Option (List Char)) : Decidable (column.Takes name opclass) :=
  inferInstanceAs (Decidable (_ ∧ _))

def Command.execute (catalog : Catalog) : Command → Option Catalog
  | .createTable place columns tablespace =>
      if ¬ catalog.schemas.contains place.schema then none
      else if (catalog.relations place).isSome then some catalog
      else if ¬ catalog.tablespaces.contains tablespace then none
      else some (catalog.add place (.table columns))
  | .createIndex name place method column opclass tablespace =>
      match catalog.relations place with
      | some (.table columns) =>
          if ¬ catalog.tablespaces.contains tablespace ∨
              ¬ ∃ other ∈ columns, other.Takes column opclass then none
          else if (catalog.relations ⟨place.schema, name⟩).isSome then
            some catalog
          else some (catalog.add ⟨place.schema, name⟩
            (.index place method column))
      | _ => none

/-- The commands of one text are executed all or none. -/
def executeAll (catalog : Catalog) (commands : List Command) :
    Option Catalog :=
  commands.foldlM Command.execute catalog

def execute (catalog : Catalog) (text : List Char) : Option Catalog :=
  (readCommands text).bind (executeAll catalog)

/-! ## What exists stays -/

structure Extends (catalog later : Catalog) : Prop where
  schemas : later.schemas = catalog.schemas
  tablespaces : later.tablespaces = catalog.tablespaces
  relations : ∀ place relation, catalog.relations place = some relation →
    later.relations place = some relation

theorem Extends.refl (catalog : Catalog) : Extends catalog catalog :=
  ⟨rfl, rfl, fun _ _ hrelation => hrelation⟩

theorem Extends.trans {catalog later last : Catalog}
    (hfirst : Extends catalog later) (hsecond : Extends later last) :
    Extends catalog last where
  schemas := hsecond.schemas.trans hfirst.schemas
  tablespaces := hsecond.tablespaces.trans hfirst.tablespaces
  relations place relation hrelation :=
    hsecond.relations place relation (hfirst.relations place relation hrelation)

theorem extends_add {catalog : Catalog} {place : Place}
    (hfree : catalog.relations place = none) (relation : Relation) :
    Extends catalog (catalog.add place relation) := by
  refine ⟨rfl, rfl, fun other found hfound => ?_⟩
  have hne : other ≠ place := fun heq => by
    rw [heq, hfree] at hfound
    cases hfound
  exact (catalog.add_relations_of_ne hne relation).trans hfound

theorem Extends.isSome {catalog later : Catalog} {place : Place}
    (hextends : Extends catalog later) (hsome : (catalog.relations place).isSome) :
    (later.relations place).isSome := by
  obtain ⟨relation, hrelation⟩ := Option.isSome_iff_exists.mp hsome
  exact Option.isSome_of_eq_some
    (hextends.relations place relation hrelation)

/-- What a command leaves: the relation it names. -/
theorem execute_createTable {catalog next : Catalog} {place : Place}
    {columns : List Column} {tablespace : List Char}
    (hexecute : (Command.createTable place columns tablespace).execute catalog =
      some next) :
    Extends catalog next ∧ place.schema ∈ catalog.schemas ∧
      (next.relations place).isSome := by
  rw [Command.execute] at hexecute
  split_ifs at hexecute with hschema hsome htablespace <;> cases hexecute
  · exact ⟨.refl catalog, List.contains_iff_mem.mp hschema, hsome⟩
  · refine ⟨extends_add (Option.not_isSome_iff_eq_none.mp hsome) _,
      List.contains_iff_mem.mp hschema, ?_⟩
    rw [Catalog.add_relations_self]
    rfl

theorem execute_createIndex {catalog next : Catalog}
    {name : List Char} {place : Place} {method column : List Char}
    {opclass : Option (List Char)} {tablespace : List Char}
    (hexecute : (Command.createIndex name place method column opclass
      tablespace).execute catalog = some next) :
    Extends catalog next ∧ tablespace ∈ catalog.tablespaces ∧
      (∃ columns, catalog.relations place = some (.table columns) ∧
        ∃ other ∈ columns, other.Takes column opclass) ∧
      (next.relations ⟨place.schema, name⟩).isSome := by
  rw [Command.execute] at hexecute
  split at hexecute
  · rename_i columns htable
    split_ifs at hexecute with hfails hsome <;> cases hexecute <;>
      rw [not_or, not_not, not_not, List.contains_iff_mem] at hfails
    · exact ⟨.refl catalog, hfails.1, ⟨columns, htable, hfails.2⟩, hsome⟩
    · refine ⟨extends_add (Option.not_isSome_iff_eq_none.mp hsome) _, hfails.1,
        ⟨columns, htable, hfails.2⟩, ?_⟩
      rw [Catalog.add_relations_self]
      rfl
  · cases hexecute

theorem Command.execute_extends {catalog next : Catalog} {command : Command}
    (hexecute : command.execute catalog = some next) :
    Extends catalog next := by
  cases command with
  | createTable place columns tablespace =>
      exact (execute_createTable hexecute).1
  | createIndex name place method column opclass tablespace =>
      exact (execute_createIndex hexecute).1

/-- A command that has been executed does nothing any more. -/
theorem Command.execute_again {catalog next later : Catalog}
    {command : Command} (hexecute : command.execute catalog = some next)
    (hlater : Extends next later) : command.execute later = some later := by
  cases command with
  | createTable place columns tablespace =>
      obtain ⟨hextends, hschema, hsome⟩ := execute_createTable hexecute
      rw [Command.execute, if_neg, if_pos (hlater.isSome hsome)]
      rw [hlater.schemas, hextends.schemas]
      exact not_not.mpr (List.contains_iff_mem.mpr hschema)
  | createIndex name place method column opclass tablespace =>
      obtain ⟨hextends, htablespace, ⟨columns, htable, hcolumn⟩, hsome⟩ :=
        execute_createIndex hexecute
      have hall := hextends.trans hlater
      rw [Command.execute, hall.relations place _ htable]
      dsimp only
      rw [if_neg, if_pos (hlater.isSome hsome)]
      rw [hall.tablespaces, not_or, not_not, not_not]
      exact ⟨List.contains_iff_mem.mpr htablespace, hcolumn⟩

theorem executeAll_cons (catalog : Catalog) (command : Command)
    (commands : List Command) :
    executeAll catalog (command :: commands) =
      (command.execute catalog).bind fun next => executeAll next commands :=
  List.foldlM_cons

theorem executeAll_extends {catalog next : Catalog} {commands : List Command}
    (hexecute : executeAll catalog commands = some next) :
    Extends catalog next := by
  induction commands generalizing catalog with
  | nil =>
      exact Option.some.inj hexecute ▸ .refl _
  | cons command commands ih =>
      rw [executeAll_cons, Option.bind_eq_some_iff] at hexecute
      obtain ⟨middle, hfirst, hrest⟩ := hexecute
      exact (Command.execute_extends hfirst).trans (ih hrest)

theorem executeAll_again {catalog next later : Catalog}
    {commands : List Command} (hexecute : executeAll catalog commands = some next)
    (hlater : Extends next later) :
    executeAll later commands = some later := by
  induction commands generalizing catalog with
  | nil => rfl
  | cons command commands ih =>
      rw [executeAll_cons, Option.bind_eq_some_iff] at hexecute
      obtain ⟨middle, hfirst, hrest⟩ := hexecute
      rw [executeAll_cons, Command.execute_again hfirst
        ((executeAll_extends hrest).trans hlater), Option.bind_some, ih hrest]

end SqlCatalog
