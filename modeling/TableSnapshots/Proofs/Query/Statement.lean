import TableSnapshots.Proofs.Query.Token

/-!
# No statement can be broken out of

Every statement with what is filled into it, the tokens that an engine finds in it, and the theorem
that it finds these: a name that is filled in stays one token and comes back as it was given,
whatever characters it has. Only the partition expression is written as it is, after everything
else. Each template is read piece by piece (`lex_showTables` and the others), and
`statement_reads_as_tokens` puts them together; two statements are then the same text only if they
are the same statement.
-/

namespace TableSnapshots.Query

/-- A statement and what is filled into it. -/
inductive Statement where
  | version
  | showDatabases
  | showTables (db : String)
  | checkTable (db table : String)
  | showCreateDatabase (db : String)
  | showCreateTable (db table : String)
  | tablesOrdered (db : String) (tables : List String)
  | tablePartitions (db table : String)
  | tableDataPath (db table : String)
  | freezeTable (db table : String)
  | freezePartition (db table partition : String)
  | attachPart (db table part : String)
  deriving DecidableEq, Repr

/-- The tokens of some words. -/
def Token.words (ws : List String) : List Token :=
  ws.map Token.word

namespace Statement

/-- The text that is sent. -/
def text : Statement → String
  | version => Query.version
  | showDatabases => Query.showDatabases
  | showTables db => Query.showTables db
  | checkTable db table => Query.checkTable db table
  | showCreateDatabase db => Query.showCreateDatabase db
  | showCreateTable db table => Query.showCreateTable db table
  | tablesOrdered db tables => Query.tablesOrdered db tables
  | tablePartitions db table => Query.tablePartitions db table
  | tableDataPath db table => Query.tableDataPath db table
  | freezeTable db table => Query.freezeTable db table
  | freezePartition db table partition => Query.freezePartition db table partition
  | attachPart db table part => Query.attachPart db table part

/-- What stands at the end as it was given. -/
def tail : Statement → String
  | freezePartition _ _ partition => partition
  | _ => ""

open Token in
/-- The tokens before the tail. -/
def tokens : Statement → List Token
  | version =>
    [.word "SELECT", .word "version", .symbol '(', .symbol ')', .word "FORMAT", .word "TSVRaw"]
  | showDatabases => words ["SHOW", "DATABASES", "FORMAT", "JSON"]
  | showTables db => words ["SHOW", "TABLES", "FROM"] ++ [.ident db] ++ words ["FORMAT", "JSON"]
  | checkTable db table =>
    [.word "SELECT", .word "countIf", .symbol '(', .word "database", .symbol '=', .value db,
      .word "AND", .word "name", .symbol '=', .value table, .symbol ')', .word "FROM",
      .word "system", .symbol '.', .word "tables", .word "FORMAT", .word "TSVRaw"]
  | showCreateDatabase db =>
    words ["SHOW", "CREATE", "DATABASE"] ++ [.ident db] ++ words ["FORMAT", "TSVRaw"]
  | showCreateTable db table =>
    words ["SHOW", "CREATE", "TABLE"] ++ [.ident db, .symbol '.', .ident table]
      ++ words ["FORMAT", "TSVRaw"]
  | tablesOrdered db tables =>
    [.word "SELECT", .word "name", .word "FROM", .word "system", .symbol '.', .word "tables",
      .word "WHERE", .word "engine", .word "like", .value "%MergeTree%", .word "AND",
      .word "database", .symbol '=', .value db,
      .word "AND", .symbol '(', .word "empty", .symbol '(', .symbol '['] ++ values tables
      ++ [.symbol ']', .symbol ')', .word "OR", .word "has", .symbol '(', .word "cast",
        .symbol '(', .symbol '['] ++ values tables
      ++ [.symbol ']', .symbol ',', .value "Array(String)", .symbol ')', .symbol ',',
        .word "name", .symbol ')', .symbol ')']
      ++ words ["ORDER", "BY", "metadata_modification_time", "FORMAT", "JSON"]
  | tablePartitions db table =>
    words ["SELECT", "DISTINCT", "partition", "FROM", "system"] ++ [.symbol '.']
      ++ words ["parts", "WHERE", "active", "AND", "database"] ++ [.symbol '=', .value db]
      ++ words ["AND", "table"] ++ [.symbol '=', .value table] ++ words ["FORMAT", "JSON"]
  | tableDataPath db table =>
    words ["SELECT", "data_path", "FROM", "system"] ++ [.symbol '.']
      ++ words ["tables", "WHERE", "database"] ++ [.symbol '=', .value db]
      ++ words ["AND", "name"] ++ [.symbol '=', .value table] ++ words ["FORMAT", "TSVRaw"]
  | freezeTable db table =>
    words ["ALTER", "TABLE"] ++ [.ident db, .symbol '.', .ident table] ++ words ["FREEZE"]
  | freezePartition db table _ =>
    words ["ALTER", "TABLE"] ++ [.ident db, .symbol '.', .ident table]
      ++ words ["FREEZE", "PARTITION"]
  | attachPart db table part =>
    words ["ALTER", "TABLE"] ++ [.ident db, .symbol '.', .ident table]
      ++ words ["ATTACH", "PART"] ++ [.value part]

end Statement

/-! ## Fixed pieces

What is written around the names is read by evaluation, over the characters that the text is written
with, which spares decoding it. A statement that ends in a word ends inside of it. -/

/-- The end that asks for JSON. -/
theorem read_formatJson :
    Mode.read .between " FORMAT JSON".toList
      = ([.word "FORMAT"], .inWord ['J', 'S', 'O', 'N']) := by
  rw [String.toList_ofList]
  rfl

/-- The end that asks for plain text. -/
theorem read_formatText :
    Mode.read .between " FORMAT TSVRaw".toList
      = ([.word "FORMAT"], .inWord ['T', 'S', 'V', 'R', 'a', 'w']) := by
  rw [String.toList_ofList]
  rfl

/-- A statement that asks for JSON, when what comes before is read. -/
theorem lex_formatJson {front : String} {ts : List Token}
    (h : Mode.read .between front.toList = (ts, .between)) :
    lex (front ++ " FORMAT JSON") = some (ts ++ Token.words ["FORMAT", "JSON"]) := by
  rw [lex_append_of_between h, lex_of_read [.word "JSON"] read_formatJson (by rfl)]
  rfl

/-- A statement that asks for plain text, when what comes before is read. -/
theorem lex_formatText {front : String} {ts : List Token}
    (h : Mode.read .between front.toList = (ts, .between)) :
    lex (front ++ " FORMAT TSVRaw") = some (ts ++ Token.words ["FORMAT", "TSVRaw"]) := by
  rw [lex_append_of_between h, lex_of_read [.word "TSVRaw"] read_formatText (by rfl)]
  rfl

/-- The dot between two identifiers. -/
theorem read_dot : Mode.read .between ".".toList = ([.symbol '.'], .between) := by
  rw [String.toList_ofList]
  rfl

/-- What every change of a table begins with. -/
theorem read_alterTable (db table : String) :
    Mode.read .between ("ALTER TABLE " ++ ident db ++ "." ++ ident table).toList
      = ([.word "ALTER", .word "TABLE", .ident db, .symbol '.', .ident table], .between) := by
  have h : Mode.read .between "ALTER TABLE ".toList
      = ([.word "ALTER", .word "TABLE"], .between) := by
    rw [String.toList_ofList]
    rfl
  simp only [String.toList_append, read_append, h, read_ident, read_dot, List.cons_append,
    List.nil_append]

/-! ## The templates -/

/-- The version query has no names. -/
theorem lex_version : lex Query.version = some Statement.version.tokens := by
  have h : Mode.read .between Query.version.toList
      = ([.word "SELECT", .word "version", .symbol '(', .symbol ')', .word "FORMAT"],
        .inWord ['T', 'S', 'V', 'R', 'a', 'w']) := by
    unfold Query.version
    rw [String.toList_ofList]
    rfl
  exact lex_of_read [.word "TSVRaw"] h (by rfl)

/-- The query for databases has no names. -/
theorem lex_showDatabases : lex Query.showDatabases = some Statement.showDatabases.tokens := by
  have h : Mode.read .between Query.showDatabases.toList
      = (Token.words ["SHOW", "DATABASES", "FORMAT"], .inWord ['J', 'S', 'O', 'N']) := by
    unfold Query.showDatabases
    rw [String.toList_ofList]
    rfl
  exact lex_of_read [.word "JSON"] h (by rfl)

/-- The query for the tables of a database. -/
theorem lex_showTables (db : String) :
    lex (showTables db) = some (Statement.showTables db).tokens := by
  have h : Mode.read .between "SHOW TABLES FROM ".toList
      = (Token.words ["SHOW", "TABLES", "FROM"], .between) := by
    rw [String.toList_ofList]
    rfl
  refine lex_formatJson ?_
  simp only [String.toList_append, read_append, h, read_ident]

/-- The query that counts tables of a name. -/
theorem lex_checkTable (db table : String) :
    lex (checkTable db table) = some (Statement.checkTable db table).tokens := by
  have h₁ : Mode.read .between "SELECT countIf(database = ".toList
      = ([.word "SELECT", .word "countIf", .symbol '(', .word "database", .symbol '='],
        .between) := by
    rw [String.toList_ofList]
    rfl
  have h₂ : Mode.read .between " AND name = ".toList
      = ([.word "AND", .word "name", .symbol '='], .between) := by
    rw [String.toList_ofList]
    rfl
  have h₃ : Mode.read .between ") FROM system.tables FORMAT TSVRaw".toList
      = ([.symbol ')', .word "FROM", .word "system", .symbol '.', .word "tables", .word "FORMAT"],
        .inWord ['T', 'S', 'V', 'R', 'a', 'w']) := by
    rw [String.toList_ofList]
    rfl
  have hlast := lex_of_read [.word "TSVRaw"] h₃ (by rfl)
  have hfront := read_append_of_eq (read_append_of_eq (read_append_of_eq h₁ (read_literal db)) h₂)
    (read_literal table)
  simp only [← String.toList_append] at hfront
  unfold checkTable
  rw [lex_append_of_between hfront, hlast]
  rfl

/-- The query for the statement that creates a database. -/
theorem lex_showCreateDatabase (db : String) :
    lex (showCreateDatabase db) = some (Statement.showCreateDatabase db).tokens := by
  have h : Mode.read .between "SHOW CREATE DATABASE ".toList
      = (Token.words ["SHOW", "CREATE", "DATABASE"], .between) := by
    rw [String.toList_ofList]
    rfl
  refine lex_formatText ?_
  simp only [String.toList_append, read_append, h, read_ident]

/-- The query for the statement that creates a table. -/
theorem lex_showCreateTable (db table : String) :
    lex (showCreateTable db table) = some (Statement.showCreateTable db table).tokens := by
  have h : Mode.read .between "SHOW CREATE TABLE ".toList
      = (Token.words ["SHOW", "CREATE", "TABLE"], .between) := by
    rw [String.toList_ofList]
    rfl
  refine lex_formatText ?_
  simp only [String.toList_append, read_append, h, read_ident, read_dot, List.append_assoc]
  rfl

set_option maxRecDepth 4000 in
/-- The query for the tables of the MergeTree family. -/
theorem lex_tablesOrdered (db : String) (tables : List String) :
    lex (tablesOrdered db tables) = some (Statement.tablesOrdered db tables).tokens := by
  have h₁ : Mode.read .between
      "SELECT name FROM system.tables WHERE engine like '%MergeTree%' AND database = ".toList
      = ([.word "SELECT", .word "name", .word "FROM", .word "system", .symbol '.', .word "tables",
        .word "WHERE", .word "engine", .word "like", .value "%MergeTree%", .word "AND",
        .word "database", .symbol '='], .between) := by
    rw [String.toList_ofList]
    rfl
  have h₂ : Mode.read .between " AND (empty([".toList
      = ([.word "AND", .symbol '(', .word "empty", .symbol '(', .symbol '['], .between) := by
    rw [String.toList_ofList]
    rfl
  have h₃ : Mode.read .between "]) OR has(cast([".toList
      = ([.symbol ']', .symbol ')', .word "OR", .word "has", .symbol '(', .word "cast", .symbol '(',
        .symbol '['], .between) := by
    rw [String.toList_ofList]
    rfl
  have h₄ : Mode.read .between
      "], 'Array(String)'), name)) ORDER BY metadata_modification_time FORMAT JSON".toList
      = ([.symbol ']', .symbol ',', .value "Array(String)", .symbol ')', .symbol ',', .word "name",
        .symbol ')', .symbol ')', .word "ORDER", .word "BY", .word "metadata_modification_time",
        .word "FORMAT"], .inWord ['J', 'S', 'O', 'N']) := by
    rw [String.toList_ofList]
    rfl
  have hlast := lex_of_read [.word "JSON"] h₄ (by rfl)
  have hfirst := read_append_of_eq (read_append_of_eq (read_append_of_eq h₁ (read_literal db)) h₂)
    (read_values tables)
  have hfront := read_append_of_eq (read_append_of_eq hfirst h₃) (read_values tables)
  simp only [← String.toList_append] at hfront
  unfold tablesOrdered
  rw [lex_append_of_between hfront, hlast, Option.map_some]
  simp [Statement.tokens, Token.words]

set_option maxRecDepth 4000 in
/-- The query for the active partitions of a table. -/
theorem lex_tablePartitions (db table : String) :
    lex (tablePartitions db table) = some (Statement.tablePartitions db table).tokens := by
  have h₁ : Mode.read .between
      "SELECT DISTINCT partition FROM system.parts WHERE active AND database = ".toList
      = (Token.words ["SELECT", "DISTINCT", "partition", "FROM", "system"] ++ [.symbol '.']
        ++ Token.words ["parts", "WHERE", "active", "AND", "database"] ++ [.symbol '='],
        .between) := by
    rw [String.toList_ofList]
    rfl
  have h₂ : Mode.read .between " AND table = ".toList
      = (Token.words ["AND", "table"] ++ [.symbol '='], .between) := by
    rw [String.toList_ofList]
    rfl
  refine lex_formatJson ?_
  simp only [String.toList_append, read_append, h₁, h₂, read_literal, List.append_assoc]
  rfl

set_option maxRecDepth 4000 in
/-- The query for the directory of a table. -/
theorem lex_tableDataPath (db table : String) :
    lex (tableDataPath db table) = some (Statement.tableDataPath db table).tokens := by
  have h₁ : Mode.read .between "SELECT data_path FROM system.tables WHERE database = ".toList
      = (Token.words ["SELECT", "data_path", "FROM", "system"] ++ [.symbol '.']
        ++ Token.words ["tables", "WHERE", "database"] ++ [.symbol '='], .between) := by
    rw [String.toList_ofList]
    rfl
  have h₂ : Mode.read .between " AND name = ".toList
      = (Token.words ["AND", "name"] ++ [.symbol '='], .between) := by
    rw [String.toList_ofList]
    rfl
  refine lex_formatText ?_
  simp only [String.toList_append, read_append, h₁, h₂, read_literal, List.append_assoc]
  rfl

/-- The statement that freezes a table. -/
theorem lex_freezeTable (db table : String) :
    lex (freezeTable db table) = some (Statement.freezeTable db table).tokens := by
  have h : Mode.read .between " FREEZE".toList = ([], .inWord ['F', 'R', 'E', 'E', 'Z', 'E']) := by
    rw [String.toList_ofList]
    rfl
  have hlast : lex " FREEZE" = some (Token.words ["FREEZE"]) :=
    lex_of_read [.word "FREEZE"] h (by rfl)
  unfold freezeTable
  rw [lex_append_of_between (read_alterTable db table), hlast]
  rfl

/-- What stands before the partition in the statement that freezes one. -/
theorem read_freezePartition (db table : String) :
    Mode.read .between
      ("ALTER TABLE " ++ ident db ++ "." ++ ident table ++ " FREEZE PARTITION ").toList
      = ((Statement.freezePartition db table "").tokens, .between) := by
  have h : Mode.read .between " FREEZE PARTITION ".toList
      = (Token.words ["FREEZE", "PARTITION"], .between) := by
    rw [String.toList_ofList]
    rfl
  rw [String.toList_append, read_append_of_eq (read_alterTable db table) h]
  rfl

/-- The statement that attaches a part. -/
theorem lex_attachPart (db table part : String) :
    lex (attachPart db table part) = some (Statement.attachPart db table part).tokens := by
  have h : Mode.read .between " ATTACH PART ".toList
      = (Token.words ["ATTACH", "PART"], .between) := by
    rw [String.toList_ofList]
    rfl
  have hfront := read_append_of_eq (read_append_of_eq (read_alterTable db table) h)
    (read_literal part)
  simp only [← String.toList_append] at hfront
  unfold attachPart
  rw [lex_of_read [] hfront (by rfl)]
  rfl

/-! ## All statements -/

/-- The text of a statement is a front, which is taken apart into the tokens of the statement, and
then the tail. -/
theorem Statement.exists_front (s : Statement) :
    ∃ front, s.text = front ++ s.tail ∧ lex front = some s.tokens := by
  cases s with
  | version => exact ⟨_, (String.append_empty).symm, lex_version⟩
  | showDatabases => exact ⟨_, (String.append_empty).symm, lex_showDatabases⟩
  | showTables db => exact ⟨_, (String.append_empty).symm, lex_showTables db⟩
  | checkTable db table => exact ⟨_, (String.append_empty).symm, lex_checkTable db table⟩
  | showCreateDatabase db => exact ⟨_, (String.append_empty).symm, lex_showCreateDatabase db⟩
  | showCreateTable db table => exact ⟨_, (String.append_empty).symm, lex_showCreateTable db table⟩
  | tablesOrdered db tables => exact ⟨_, (String.append_empty).symm, lex_tablesOrdered db tables⟩
  | tablePartitions db table => exact ⟨_, (String.append_empty).symm, lex_tablePartitions db table⟩
  | tableDataPath db table => exact ⟨_, (String.append_empty).symm, lex_tableDataPath db table⟩
  | freezeTable db table => exact ⟨_, (String.append_empty).symm, lex_freezeTable db table⟩
  | freezePartition db table partition =>
    refine ⟨_, rfl, ?_⟩
    rw [lex_of_read [] (read_freezePartition db table) (by rfl), List.append_nil]
    rfl
  | attachPart db table part => exact ⟨_, (String.append_empty).symm, lex_attachPart db table part⟩

/-- A statement freezes one partition, or nothing in it stands as it was given. -/
theorem Statement.freezePartition_or_tail (s : Statement) :
    (∃ db table partition, s = .freezePartition db table partition) ∨
      s.tail = "" ∧ ∀ db table partition, s ≠ .freezePartition db table partition := by
  cases s with
  | freezePartition db table partition => exact .inl ⟨db, table, partition, rfl⟩
  | _ => exact .inr ⟨rfl, by simp⟩

/-- A statement without a tail is taken apart into its tokens. -/
theorem Statement.lex_text_of_tail {s : Statement} (h : s.tail = "") :
    lex s.text = some s.tokens := by
  obtain ⟨front, htext, hlex⟩ := s.exists_front
  rw [htext, h, String.append_empty, hlex]

/-- The tokens of a statement are its own, followed by those of the tail. -/
theorem Statement.lex_text (s : Statement) :
    lex s.text = (lex s.tail).map (s.tokens ++ ·) := by
  rcases s.freezePartition_or_tail with ⟨db, table, partition, rfl⟩ | ⟨htail, -⟩
  · exact lex_append_of_between (read_freezePartition db table)
  · have hempty : lex "" = some [] := by rfl
    rw [lex_text_of_tail htail, htail, hempty, Option.map_some, List.append_nil]

/-! ## Telling statements apart -/

/-- The text values among some tokens. -/
def Token.value? : Token → Option String
  | .value s => some s
  | _ => none

/-- The values of a list of text values. -/
theorem filterMap_values (names : List String) :
    (Token.values names).filterMap Token.value? = names := by
  unfold Token.values
  cases names with
  | nil => rfl
  | cons name names =>
    induction names generalizing name with
    | nil => rfl
    | cons next names ih =>
      have h := ih next
      simp only [List.map_cons, List.intersperse] at h ⊢
      simp [List.filterMap_cons, Token.value?, h]

/-- The text values of the query for the tables of the MergeTree family: its list comes twice. -/
theorem filterMap_tablesOrdered (db : String) (tables : List String) :
    (Statement.tablesOrdered db tables).tokens.filterMap Token.value?
      = ["%MergeTree%", db] ++ (tables ++ (tables ++ ["Array(String)"])) := by
  simp only [Statement.tokens, List.filterMap_append, filterMap_values]
  simp [List.filterMap_cons, Token.value?, Token.words]

/-- The tokens of the query for the tables of the MergeTree family tell what was filled in. -/
theorem tablesOrdered_of_tokens {db db' : String} {tables tables' : List String}
    (h : (Statement.tablesOrdered db tables).tokens
      = (Statement.tablesOrdered db' tables').tokens) :
    db = db' ∧ tables = tables' := by
  have hvalues := congrArg (List.filterMap Token.value?) h
  rw [filterMap_tablesOrdered, filterMap_tablesOrdered] at hvalues
  have hlength := congrArg List.length hvalues
  simp only [List.length_append, List.length_cons, List.length_nil] at hlength
  simp only [List.cons_append, List.nil_append, List.cons.injEq, true_and] at hvalues
  obtain ⟨hdb, hlists⟩ := hvalues
  exact ⟨hdb, (List.append_inj hlists (by omega)).1⟩

/-- A statement is known by its tokens and its tail. -/
theorem Statement.eq_of_tokens {s t : Statement} (htokens : s.tokens = t.tokens)
    (htail : s.tail = t.tail) : s = t := by
  by_cases h : ∃ db tables db' tables',
      s = .tablesOrdered db tables ∧ t = .tablesOrdered db' tables'
  · obtain ⟨db, tables, db', tables', rfl, rfl⟩ := h
    obtain ⟨rfl, rfl⟩ := tablesOrdered_of_tokens htokens
    rfl
  · cases s <;> cases t <;> simp_all [Statement.tokens, Statement.tail, Token.words]

/-- Whatever the partition is, the statement that freezes it begins with the same tokens. -/
theorem read_freezePartition_append (db table partition : String) :
    ∃ rest, (Mode.read .between (freezePartition db table partition).toList).1
      = (Statement.freezePartition db table "").tokens ++ rest := by
  unfold freezePartition
  rw [String.toList_append, read_append, read_freezePartition]
  exact ⟨_, rfl⟩

/-- A statement with the text of one that freezes a partition is that statement. -/
theorem Statement.eq_of_text_freezePartition {db table partition : String} {t : Statement}
    (h : t.text = Query.freezePartition db table partition) :
    t = .freezePartition db table partition := by
  rcases t.freezePartition_or_tail with ⟨db', table', partition', rfl⟩ | ⟨htail, hother⟩
  · -- The partitions may be anything, so only what is read before them can be compared.
    obtain ⟨rest, hrest⟩ := read_freezePartition_append db table partition
    obtain ⟨rest', hrest'⟩ := read_freezePartition_append db' table' partition'
    rw [← h, Statement.text, hrest'] at hrest
    obtain ⟨htokens, -⟩ := List.append_inj hrest rfl
    simp only [Statement.tokens, Token.words, List.map_cons, List.map_nil, List.cons_append,
      List.nil_append, List.cons.injEq, Token.ident.injEq, true_and, and_true] at htokens
    obtain ⟨rfl, rfl⟩ := htokens
    have hpartition := (String.append_right_inj _).mp h
    rw [hpartition]
  · -- The other statements are taken apart to the end, and none has these tokens at its front.
    have hlex := Statement.lex_text (.freezePartition db table partition)
    rw [Statement.text, ← h, lex_text_of_tail htail] at hlex
    obtain ⟨us, -, hus⟩ := Option.map_eq_some_iff.mp hlex.symm
    cases t with
    | freezePartition db' table' partition' => exact absurd rfl (hother db' table' partition')
    | _ => simp [Statement.tokens, Token.words] at hus

/-- The text tells which statement it is and what was filled in. -/
theorem Statement.text_injective : Function.Injective Statement.text := by
  intro s t h
  rcases s.freezePartition_or_tail with ⟨db, table, partition, rfl⟩ | ⟨hs, -⟩
  · exact (eq_of_text_freezePartition h.symm).symm
  rcases t.freezePartition_or_tail with ⟨db, table, partition, rfl⟩ | ⟨ht, -⟩
  · exact eq_of_text_freezePartition h
  refine eq_of_tokens (Option.some.inj ?_) (hs.trans ht.symm)
  rw [← lex_text_of_tail hs, ← lex_text_of_tail ht, h]

/-- No name breaks out of a statement. Whatever is filled in, the text of a statement is a front,
which an engine takes apart into exactly the tokens of the statement with the names as they were
given, and then, character for character, the tail: the partition expression of a statement that
freezes one partition, and nothing in any other statement. The tail is read as if it stood alone,
and different names never give the same text. -/
theorem statement_reads_as_tokens :
    (∀ s : Statement, (∃ front, s.text = front ++ s.tail ∧ lex front = some s.tokens) ∧
      lex s.text = (lex s.tail).map (s.tokens ++ ·)) ∧
    Function.Injective Statement.text :=
  ⟨fun s => ⟨s.exists_front, s.lex_text⟩, Statement.text_injective⟩

end TableSnapshots.Query
