import TableSnapshots.Config.Load
import TableSnapshots.Proofs.Json.Layout
import TableSnapshots.Proofs.Json.Natural
import TableSnapshots.Proofs.Json.Reading
import TableSnapshots.Proofs.Text.Bytes

/-!
# Reading configurations

Whatever fields of a configuration are given, at every level and in any order, or as lists of the
first ones, every text that spells them is read as the configuration that they make, with the
defaults for the others. A text with an unknown or a repeated field at any level, or without the
data directory, is refused for this field, and a text with a whole number that is out of range is
refused (`Config.decodes_every_spelling`).
-/

namespace TableSnapshots

open Json (Draft Layout Mismatch Numeral)
open Json.Layout (Begins given named)

/-- The draft of a text. -/
def Json.Draft.ofString (s : String) : Draft :=
  .text (some s)

/-- The draft of a natural number. -/
def Json.Draft.ofNat (n : Nat) : Draft :=
  .number (Json.natural n)

/-! ## Clients -/

namespace ClientConfig

/-- Which fields of a client configuration are given, and what they are. -/
structure Choice where
  url : Option String := none
  user : Option String := none
  password : Option String := none
  timeoutSeconds : Option UInt64 := none

/-- The given fields, in the order of the layout. -/
def Choice.fields (c : Choice) : List (String × Draft) :=
  given "url" (c.url.map .ofString) ++ (given "user" (c.user.map .ofString) ++
    (given "password" (c.password.map .ofString) ++
      (given "timeout_secs" (c.timeoutSeconds.map fun n => .ofNat n.toNat) ++ [])))

/-- The configuration that they make, with the defaults for the others. -/
def Choice.config (c : Choice) : ClientConfig where
  url := c.url.getD "http://localhost:8123"
  user := c.user.getD "default"
  password := c.password.getD ""
  timeoutSeconds := (c.timeoutSeconds.map UInt64.toNat).getD 60

/-- The fields of some choice. -/
def Whole (fields : List (String × Draft)) : Prop :=
  ∃ c : Choice, fields = c.fields

/-- The field of the address. -/
def urlField : Json.Field Given :=
  .setting "url" (·.url.isSome) true (Draft.toText "a string") fun s g => { g with url := some s }

/-- The field of the user. -/
def userField : Json.Field Given :=
  .setting "user" (·.user.isSome) true (Draft.toText "a string")
    fun s g => { g with user := some s }

/-- The field of the password. -/
def passwordField : Json.Field Given :=
  .setting "password" (·.password.isSome) true (Draft.toText "a string")
    fun s g => { g with password := some s }

/-- The field of the patience with the server. -/
def timeoutField : Json.Field Given :=
  .setting "timeout_secs" (·.timeoutSeconds.isSome) true (Draft.toUnsigned 64)
    fun n g => { g with timeoutSeconds := some n }

/-- The layout has these fields. -/
theorem layout_fields : layout.fields = [urlField, userField, passwordField, timeoutField] := rfl

/-- They do not touch each other. -/
theorem layout_regular : layout.Regular where
  strict := rfl
  nodup := by decide
  fresh := by
    simp only [layout_fields, List.forall_mem_cons]
    exact ⟨rfl, rfl, rfl, rfl, nofun⟩
  marks := by
    simp only [layout_fields, List.forall_mem_cons, List.not_mem_nil, false_implies, implies_true,
      and_true]
    and_intros <;> exact Json.Field.marks_setting fun _ _ => rfl
  apart := by
    simp only [layout_fields, List.pairwise_cons, List.forall_mem_cons, List.not_mem_nil,
      false_implies, implies_true, List.Pairwise.nil, and_true]
    and_intros <;> exact Json.Field.apart_setting (fun _ _ => rfl) (fun _ _ => rfl) fun _ _ _ => rfl

/-- The given fields are collected. -/
theorem collectMembers_fields (c : Choice) :
    layout.collectMembers (named c.fields) layout.empty
      = .ok ⟨c.url, c.user, c.password, c.timeoutSeconds.map UInt64.toNat⟩ := by
  obtain ⟨url, user, password, timeout⟩ := c
  have htimeout : ∀ n : UInt64, (Draft.ofNat n.toNat).toUnsigned 64 = .ok n.toNat :=
    fun n => Json.toUnsigned_natural (Nat.le_refl 64) n.toNat_lt
  calc
    _ = layout.collectMembers _ ⟨url, none, none, none⟩ :=
      layout_regular.collect_given urlField (by simp [layout_fields]) rfl (by cases url <;> rfl) _
    _ = layout.collectMembers _ ⟨url, user, none, none⟩ :=
      layout_regular.collect_given userField (by simp [layout_fields]) rfl
        (by cases user <;> rfl) _
    _ = layout.collectMembers _ ⟨url, user, password, none⟩ :=
      layout_regular.collect_given passwordField (by simp [layout_fields]) rfl
        (by cases password <;> rfl) _
    _ = layout.collectMembers (named []) ⟨url, user, password, timeout.map UInt64.toNat⟩ :=
      layout_regular.collect_given timeoutField (by simp [layout_fields]) rfl (by
        cases timeout with
        | none => rfl
        | some n => exact Json.Field.take_setting_eq_ok_iff.mpr ⟨n.toNat, htimeout n, rfl⟩) _

/-- The configuration is read from every draft of the given fields. -/
theorem read_of_gives {c : Choice} {d : Draft} (h : layout.Gives c.fields d) :
    layout.read d = .ok c.config := by
  have hoptional : ∀ f ∈ layout.fields, f.optional = true := by
    simp only [layout_fields, List.forall_mem_cons]
    exact ⟨rfl, rfl, rfl, rfl, nofun⟩
  have hsuffice := Layout.suffice_of_optional hoptional c.fields
  rw [layout_regular.read_of_gives hsuffice h (collectMembers_fields c)]
  rfl

/-- Those of every choice are. -/
theorem collects_whole : layout.Collects Whole := by
  rintro _ ⟨c, rfl⟩
  exact ⟨_, collectMembers_fields c⟩

/-- The numbers, with the sizes of their words. -/
def numbers : List (String × Nat) :=
  [("timeout_secs", 64)]

/-- A number that is out of range is refused. -/
theorem read_of_outOfRange {d : Draft} (h : layout.OutOfRange Whole numbers d) :
    ∃ e, layout.read d = .error e := by
  refine layout_regular.read_of_outOfRange collects_whole ?_ h
  simp only [numbers, List.forall_mem_singleton]
  exact ⟨timeoutField, by simp [layout_fields], rfl, fun _ _ s he =>
    Json.Field.take_setting_of_error he s⟩

end ClientConfig

/-! ## Removals -/

namespace TeardownConfig

/-- Which fields of a teardown configuration are given, and what they are. -/
structure Choice where
  maxAttempts : Option UInt32 := none
  baseDelayMillis : Option UInt64 := none
  maxDelayMillis : Option UInt64 := none

/-- The given fields, in the order of the layout. -/
def Choice.fields (c : Choice) : List (String × Draft) :=
  given "max_attempts" (c.maxAttempts.map fun n => .ofNat n.toNat) ++
    (given "base_delay_ms" (c.baseDelayMillis.map fun n => .ofNat n.toNat) ++
      (given "max_delay_ms" (c.maxDelayMillis.map fun n => .ofNat n.toNat) ++ []))

/-- The configuration that they make, with the defaults for the others. -/
def Choice.config (c : Choice) : TeardownConfig where
  maxAttempts := c.maxAttempts.getD 5
  baseDelayMillis := (c.baseDelayMillis.map UInt64.toNat).getD 100
  maxDelayMillis := (c.maxDelayMillis.map UInt64.toNat).getD 2000

/-- The fields of some choice. -/
def Whole (fields : List (String × Draft)) : Prop :=
  ∃ c : Choice, fields = c.fields

/-- The field of the attempts. -/
def attemptsField : Json.Field Given :=
  .setting "max_attempts" (·.maxAttempts.isSome) true (Draft.toUnsigned 32)
    fun n g => { g with maxAttempts := some n }

/-- The field of the first delay. -/
def baseDelayField : Json.Field Given :=
  .setting "base_delay_ms" (·.baseDelayMillis.isSome) true (Draft.toUnsigned 64)
    fun n g => { g with baseDelayMillis := some n }

/-- The field of the longest delay. -/
def maxDelayField : Json.Field Given :=
  .setting "max_delay_ms" (·.maxDelayMillis.isSome) true (Draft.toUnsigned 64)
    fun n g => { g with maxDelayMillis := some n }

/-- The layout has these fields. -/
theorem layout_fields : layout.fields = [attemptsField, baseDelayField, maxDelayField] := rfl

/-- They do not touch each other. -/
theorem layout_regular : layout.Regular where
  strict := rfl
  nodup := by decide
  fresh := by
    simp only [layout_fields, List.forall_mem_cons]
    exact ⟨rfl, rfl, rfl, nofun⟩
  marks := by
    simp only [layout_fields, List.forall_mem_cons, List.not_mem_nil, false_implies, implies_true,
      and_true]
    and_intros <;> exact Json.Field.marks_setting fun _ _ => rfl
  apart := by
    simp only [layout_fields, List.pairwise_cons, List.forall_mem_cons, List.not_mem_nil,
      false_implies, implies_true, List.Pairwise.nil, and_true]
    and_intros <;> exact Json.Field.apart_setting (fun _ _ => rfl) (fun _ _ => rfl) fun _ _ _ => rfl

/-- The given fields are collected. -/
theorem collectMembers_fields (c : Choice) :
    layout.collectMembers (named c.fields) layout.empty
      = .ok ⟨c.maxAttempts.map UInt32.toNat, c.baseDelayMillis.map UInt64.toNat,
          c.maxDelayMillis.map UInt64.toNat⟩ := by
  obtain ⟨attempts, base, max⟩ := c
  have hattempts : ∀ n : UInt32, (Draft.ofNat n.toNat).toUnsigned 32 = .ok n.toNat :=
    fun n => Json.toUnsigned_natural (by decide) n.toNat_lt
  have hdelay : ∀ n : UInt64, (Draft.ofNat n.toNat).toUnsigned 64 = .ok n.toNat :=
    fun n => Json.toUnsigned_natural (Nat.le_refl 64) n.toNat_lt
  calc
    _ = layout.collectMembers _ ⟨attempts.map UInt32.toNat, none, none⟩ :=
      layout_regular.collect_given attemptsField (by simp [layout_fields]) rfl (by
        cases attempts with
        | none => rfl
        | some n => exact Json.Field.take_setting_eq_ok_iff.mpr ⟨n.toNat, hattempts n, rfl⟩) _
    _ = layout.collectMembers _ ⟨attempts.map UInt32.toNat, base.map UInt64.toNat, none⟩ :=
      layout_regular.collect_given baseDelayField (by simp [layout_fields]) rfl (by
        cases base with
        | none => rfl
        | some n => exact Json.Field.take_setting_eq_ok_iff.mpr ⟨n.toNat, hdelay n, rfl⟩) _
    _ = layout.collectMembers (named []) ⟨attempts.map UInt32.toNat, base.map UInt64.toNat,
          max.map UInt64.toNat⟩ :=
      layout_regular.collect_given maxDelayField (by simp [layout_fields]) rfl (by
        cases max with
        | none => rfl
        | some n => exact Json.Field.take_setting_eq_ok_iff.mpr ⟨n.toNat, hdelay n, rfl⟩) _

/-- The configuration is read from every draft of the given fields. -/
theorem read_of_gives {c : Choice} {d : Draft} (h : layout.Gives c.fields d) :
    layout.read d = .ok c.config := by
  have hoptional : ∀ f ∈ layout.fields, f.optional = true := by
    simp only [layout_fields, List.forall_mem_cons]
    exact ⟨rfl, rfl, rfl, nofun⟩
  have hsuffice := Layout.suffice_of_optional hoptional c.fields
  have hattempts : (c.maxAttempts.map UInt32.toNat).map Nat.toUInt32 = c.maxAttempts := by
    rw [Option.map_map, show Nat.toUInt32 ∘ UInt32.toNat = id from funext fun _ =>
      UInt32.ofNat_toNat, Option.map_id, id]
  rw [layout_regular.read_of_gives hsuffice h (collectMembers_fields c)]
  unfold layout Choice.config
  dsimp only
  rw [hattempts]

/-- Those of every choice are. -/
theorem collects_whole : layout.Collects Whole := by
  rintro _ ⟨c, rfl⟩
  exact ⟨_, collectMembers_fields c⟩

/-- The numbers, with the sizes of their words. -/
def numbers : List (String × Nat) :=
  [("max_attempts", 32), ("base_delay_ms", 64), ("max_delay_ms", 64)]

/-- A number that is out of range is refused. -/
theorem read_of_outOfRange {d : Draft} (h : layout.OutOfRange Whole numbers d) :
    ∃ e, layout.read d = .error e := by
  refine layout_regular.read_of_outOfRange collects_whole ?_ h
  simp only [numbers, List.forall_mem_cons]
  refine ⟨⟨attemptsField, by simp [layout_fields], rfl, ?_⟩,
    ⟨baseDelayField, by simp [layout_fields], rfl, ?_⟩,
    ⟨maxDelayField, by simp [layout_fields], rfl, ?_⟩, nofun⟩ <;>
  exact fun _ _ s he => Json.Field.take_setting_of_error he s

end TeardownConfig

/-! ## Configurations -/

namespace Config

/-- Which fields of a configuration are given, and what they are. -/
structure Choice where
  dataPath : String
  user : Option String := none
  group : Option String := none
  client : Option ClientConfig.Choice := none
  teardown : Option TeardownConfig.Choice := none

/-- Drafts of the two parts of a choice. -/
structure Choice.Parts (c : Choice) (client teardown : Option Draft) : Prop where
  client : Option.Rel (fun c d => ClientConfig.layout.Gives c.fields d) c.client client
  teardown : Option.Rel (fun c d => TeardownConfig.layout.Gives c.fields d) c.teardown teardown

/-- The given fields but the data directory, in the order of the layout. -/
def Choice.others (c : Choice) (client teardown : Option Draft) : List (String × Draft) :=
  given "user" (c.user.map .ofString) ++ (given "group" (c.group.map .ofString) ++
    (given "client" client ++ (given "teardown" teardown ++ [])))

/-- All of them. -/
def Choice.fields (c : Choice) (client teardown : Option Draft) : List (String × Draft) :=
  ("data_path", .ofString c.dataPath) :: c.others client teardown

/-- The configuration that they make, with the defaults for the others. -/
def Choice.config (c : Choice) : Config where
  dataPath := ⟨c.dataPath⟩
  user := c.user.getD "clickhouse"
  group := c.group.getD "clickhouse"
  client := (c.client.getD {}).config
  teardown := (c.teardown.getD {}).config

/-- The drafts of a choice. -/
def Choice.Written (c : Choice) (d : Draft) : Prop :=
  ∃ client teardown, c.Parts client teardown ∧ layout.Gives (c.fields client teardown) d

/-- The fields of some choice. -/
def Whole (fields : List (String × Draft)) : Prop :=
  ∃ (c : Choice) (client teardown : Option Draft), c.Parts client teardown ∧
    fields = c.fields client teardown

/-- The field of the data directory. -/
def dataPathField : Json.Field Given :=
  .setting "data_path" (·.dataPath.isSome) false (Draft.toText "path string")
    fun s g => { g with dataPath := some s }

/-- The field of the owner. -/
def userField : Json.Field Given :=
  .setting "user" (·.user.isSome) true (Draft.toText "a string")
    fun s g => { g with user := some s }

/-- The field of the owner's group. -/
def groupField : Json.Field Given :=
  .setting "group" (·.group.isSome) true (Draft.toText "a string")
    fun s g => { g with group := some s }

/-- The field of the client. -/
def clientField : Json.Field Given :=
  .setting "client" (·.client.isSome) true ClientConfig.layout.read
    fun c g => { g with client := some c }

/-- The field of the removals. -/
def teardownField : Json.Field Given :=
  .setting "teardown" (·.teardown.isSome) true TeardownConfig.layout.read
    fun t g => { g with teardown := some t }

/-- The layout has these fields. -/
theorem layout_fields :
    layout.fields = [dataPathField, userField, groupField, clientField, teardownField] := rfl

/-- They do not touch each other. -/
theorem layout_regular : layout.Regular where
  strict := rfl
  nodup := by decide
  fresh := by
    simp only [layout_fields, List.forall_mem_cons]
    exact ⟨rfl, rfl, rfl, rfl, rfl, nofun⟩
  marks := by
    simp only [layout_fields, List.forall_mem_cons, List.not_mem_nil, false_implies, implies_true,
      and_true]
    and_intros <;> exact Json.Field.marks_setting fun _ _ => rfl
  apart := by
    simp only [layout_fields, List.pairwise_cons, List.forall_mem_cons, List.not_mem_nil,
      false_implies, implies_true, List.Pairwise.nil, and_true]
    and_intros <;> exact Json.Field.apart_setting (fun _ _ => rfl) (fun _ _ => rfl) fun _ _ _ => rfl

/-- The given fields but the data directory are collected, whether this is there or not. -/
theorem collectMembers_others {c : Choice} {client teardown : Option Draft}
    (h : c.Parts client teardown) (dataPath : Option String) :
    layout.collectMembers (named (c.others client teardown)) ⟨dataPath, none, none, none, none⟩
      = .ok ⟨dataPath, c.user, c.group, c.client.map (·.config), c.teardown.map (·.config)⟩ := by
  obtain ⟨_, user, group, choice, choice'⟩ := c
  obtain ⟨hclient, hteardown⟩ := h
  calc
    _ = layout.collectMembers _ ⟨dataPath, user, none, none, none⟩ :=
      layout_regular.collect_given userField (by simp [layout_fields]) rfl
        (by cases user <;> rfl) _
    _ = layout.collectMembers _ ⟨dataPath, user, group, none, none⟩ :=
      layout_regular.collect_given groupField (by simp [layout_fields]) rfl
        (by cases group <;> rfl) _
    _ = layout.collectMembers _ ⟨dataPath, user, group, choice.map (·.config), none⟩ :=
      layout_regular.collect_given clientField (by simp [layout_fields]) rfl (by
        cases hclient with
        | none => rfl
        | some hgives =>
          have hread := ClientConfig.read_of_gives hgives
          exact Json.Field.take_setting_eq_ok_iff.mpr ⟨_, hread, rfl⟩) _
    _ = layout.collectMembers (named []) ⟨dataPath, user, group, choice.map (·.config),
          choice'.map (·.config)⟩ :=
      layout_regular.collect_given teardownField (by simp [layout_fields]) rfl (by
        cases hteardown with
        | none => rfl
        | some hgives =>
          have hread := TeardownConfig.read_of_gives hgives
          exact Json.Field.take_setting_eq_ok_iff.mpr ⟨_, hread, rfl⟩) _

/-- All given fields are. -/
theorem collectMembers_fields {c : Choice} {client teardown : Option Draft}
    (h : c.Parts client teardown) :
    layout.collectMembers (named (c.fields client teardown)) layout.empty
      = .ok ⟨c.dataPath, c.user, c.group, c.client.map (·.config), c.teardown.map (·.config)⟩ := by
  rw [← collectMembers_others h (some c.dataPath)]
  exact layout_regular.collect_given dataPathField (v := some (.ofString c.dataPath))
    (by simp [layout_fields]) rfl rfl _

/-- Those of every choice are. -/
theorem collects_whole : layout.Collects Whole := by
  rintro _ ⟨c, client, teardown, h, rfl⟩
  exact ⟨_, collectMembers_fields h⟩

/-- The configuration is read from every draft of a choice. -/
theorem read_of_written {c : Choice} {d : Draft} (h : c.Written d) :
    layout.read d = .ok c.config := by
  obtain ⟨client, teardown, hparts, hgives⟩ := h
  have hsuffice : layout.Suffice (c.fields client teardown) := by
    have honly : ∀ f ∈ layout.fields, f.optional = false → f.name = "data_path" := by
      rw [layout_fields]
      simp only [List.forall_mem_cons]
      exact ⟨fun _ => rfl, nofun, nofun, nofun, nofun, nofun⟩
    intro f hf hrequired
    rw [honly f hf hrequired]
    exact List.mem_cons_self
  rw [layout_regular.read_of_gives hsuffice hgives (collectMembers_fields hparts)]
  obtain ⟨dataPath, user, group, client, teardown⟩ := c
  cases client <;> cases teardown <;> rfl

/-- The drafts with one field too many, or without the data directory, and what is wrong. -/
inductive Strays : Draft → Mismatch → Prop
  /-- The field is one of the configuration itself. -/
  | here {d : Draft} {e : Mismatch} (h : layout.Strays Whole d e) : Strays d e
  /-- It is one of its client. -/
  | client {v : Draft} {e : Mismatch} (h : ClientConfig.layout.Strays ClientConfig.Whole v e)
    {d : Draft} (goesOn : layout.GoesOn Whole "client" v d) : Strays d e
  /-- It is one of its removals. -/
  | teardown {v : Draft} {e : Mismatch} (h : TeardownConfig.layout.Strays TeardownConfig.Whole v e)
    {d : Draft} (goesOn : layout.GoesOn Whole "teardown" v d) : Strays d e
  /-- The data directory is missing. -/
  | missing {c : Choice} {client teardown : Option Draft} (parts : c.Parts client teardown)
    {ms : List (String × Draft)} (perm : ms.Perm (c.others client teardown)) :
    Strays (.record (named ms) none) (.missingField "data_path")

/-- The drafts with a number that is out of range. -/
inductive OutOfRange : Draft → Prop
  | client {v : Draft}
    (h : ClientConfig.layout.OutOfRange ClientConfig.Whole ClientConfig.numbers v) {d : Draft}
    (goesOn : layout.GoesOn Whole "client" v d) : OutOfRange d
  | teardown {v : Draft}
    (h : TeardownConfig.layout.OutOfRange TeardownConfig.Whole TeardownConfig.numbers v)
    {d : Draft} (goesOn : layout.GoesOn Whole "teardown" v d) : OutOfRange d

/-- A draft is refused if it goes on with a client that is refused. -/
theorem read_of_client {v d : Draft} {e : Json.ReadError}
    (h : ClientConfig.layout.read v = .error e) (goesOn : layout.GoesOn Whole "client" v d) :
    layout.read d = .error e :=
  layout_regular.read_of_goesOn collects_whole (f := clientField) (by simp [layout_fields])
    (Json.Field.take_setting_of_error h) goesOn

/-- So is one that goes on with removals that are refused. -/
theorem read_of_teardown {v d : Draft} {e : Json.ReadError}
    (h : TeardownConfig.layout.read v = .error e) (goesOn : layout.GoesOn Whole "teardown" v d) :
    layout.read d = .error e :=
  layout_regular.read_of_goesOn collects_whole (f := teardownField) (by simp [layout_fields])
    (Json.Field.take_setting_of_error h) goesOn

/-- A draft with a field too many or too few is refused for it. -/
theorem read_of_strays {d : Draft} {e : Mismatch} (h : Strays d e) :
    layout.read d = .error (.mismatch e) := by
  cases h with
  | here h => exact layout_regular.read_of_strays collects_whole h
  | client h goesOn =>
    have hclient := ClientConfig.layout_regular.read_of_strays ClientConfig.collects_whole h
    exact read_of_client hclient goesOn
  | teardown h goesOn =>
    have hteardown := TeardownConfig.layout_regular.read_of_strays TeardownConfig.collects_whole h
    exact read_of_teardown hteardown goesOn
  | missing parts perm =>
    -- All that is given is collected, and only then the data directory is missed.
    have hcollect := layout_regular.collectMembers_perm perm.symm (collectMembers_others parts none)
    unfold Layout.read
    dsimp only
    rw [show layout.empty = ⟨none, none, none, none, none⟩ from rfl, hcollect]
    rfl

/-- A draft with a number that is out of range is refused. -/
theorem read_of_outOfRange {d : Draft} (h : OutOfRange d) : ∃ e, layout.read d = .error e := by
  cases h with
  | client h goesOn =>
    obtain ⟨e, he⟩ := ClientConfig.read_of_outOfRange h
    exact ⟨e, read_of_client he goesOn⟩
  | teardown h goesOn =>
    obtain ⟨e, he⟩ := TeardownConfig.read_of_outOfRange h
    exact ⟨e, read_of_teardown he goesOn⟩

/-- A text that spells a draft is read as the draft is. -/
theorem ofText_eq {s : String} {d : Draft} (h : Json.SpellsPadded d s.toList) :
    ofText s = layout.read d := by
  unfold ofText Json.Document.read
  rw [Json.Document.ofText_of_spells h]
  dsimp only
  cases layout.read d <;> rfl

/-- A file is loaded as its text is read, and what is wrong with the text is an error of its own
kind. -/
theorem load_of_readFile {m : Type → Type} [Monad m] [LawfulMonad m] (files : Files m)
    (path : Path) (s : String) (h : files.readFile path = pure (.ok s.toUTF8)) :
    load files path = pure ((ofText s).mapError .parse) := by
  unfold load
  rw [h, pure_bind]
  dsimp only
  rw [Text.fromUTF8?_toUTF8]

/-- Every text of a choice is read as its configuration, with the defaults for what is not given. A
text with a field too many or without the data directory is refused for this, and one with a number
that is out of range is refused. A file with the text is loaded as this is read, and what is refused
is an error of parsing. -/
theorem decodes_every_spelling {s : String} {d : Draft} (h : Json.SpellsPadded d s.toList) :
    (∀ c : Choice, c.Written d → ofText s = .ok c.config) ∧
      (∀ e, Strays d e → ofText s = .error (.mismatch e)) ∧
      (OutOfRange d → ∃ e, ofText s = .error e) ∧
      ∀ {m : Type → Type} [Monad m] [LawfulMonad m] (files : Files m) (path : Path),
        files.readFile path = pure (.ok s.toUTF8) →
          load files path = pure ((ofText s).mapError .parse) := by
  refine ⟨?_, ?_, ?_, fun files path => load_of_readFile files path s⟩
  · exact fun c hc => (ofText_eq h).trans (read_of_written hc)
  · exact fun e he => (ofText_eq h).trans (read_of_strays he)
  · intro hrange
    rw [ofText_eq h]
    exact read_of_outOfRange hrange

/-- The client comes first, as a list, with spaces and an escape in between; an attempt field comes
twice; and a patience is one more than a word can hold. -/
theorem decodes_every_spelling_reordered :
    ofText "\x7b \"client\": [\"http://ch\"], \"data_path\": \"\\u002Fsrv\" \x7d"
        = .ok { dataPath := ⟨"/srv"⟩, client := { url := "http://ch" } } ∧
      ofText
        "\x7b\"teardown\":\x7b\"max_attempts\":1,\"max_attempts\":2\x7d,\"data_path\":\"/srv\"\x7d"
        = .error (.mismatch (.duplicateField "max_attempts")) ∧
      ∃ e, ofText
        "\x7b\"client\":\x7b\"timeout_secs\":18446744073709551616\x7d,\"data_path\":\"/srv\"\x7d"
        = .error e := by
  have hself : ∀ cs : List Char, cs.all (fun c => c ≠ '"' && c ≠ '\\' && 32 ≤ c.toNat) →
      Json.SpellsChars cs cs := fun cs hcs => Json.spellsChars_self (by simpa [and_assoc] using hcs)
  have hdigits : ∀ c ds, c ≠ '0' ∧ (c :: ds).all Text.isDigit →
      Json.Spells (.number ⟨false, c :: ds, none, none⟩) (c :: ds) :=
    fun c ds h => Json.spells_digits ⟨⟨List.cons_ne_nil c ds, List.all_eq_true.mp h.2⟩,
      fun _ heq => absurd (List.cons.inj heq).1 h.1⟩
  have hspace : Json.Gap [' '] := by decide
  have hsrv : Json.SpellsMember (some "data_path", .ofString "/srv") _ :=
    .intro Json.gap_nil (hself _ (by decide)) Json.gap_nil
      (Json.Spells.text (hself "/srv".toList (by decide))).padded
  have hbegins : Begins Whole [] :=
    ⟨_, _, ⟨{ dataPath := "/srv" }, none, none, ⟨.none, .none⟩, rfl⟩, .refl _⟩
  refine ⟨?_, ?_, ?_⟩
  · -- The client is a list of its first field, and the data directory comes after it.
    have hurl : Json.Spells (.list [.ofString "http://ch"] none) _ :=
      .list (.last (Json.Spells.text (hself "http://ch".toList (by decide))).padded)
    have hslash : Json.SpellsChar '/' ['\\', 'u', '0', '0', '2', 'F'] :=
      .unit (by decide) ⟨'0', '0', '2', 'F', .inl rfl, .inl rfl, .inl rfl, .inr (by decide), rfl⟩
    have hpath : Json.Spells (.ofString "/srv") _ :=
      .text (.cons hslash (hself "srv".toList (by decide)))
    have hclient : Json.SpellsMember (some "client", .list [.ofString "http://ch"] none) _ :=
      .intro hspace (hself _ (by decide)) Json.gap_nil (.intro hspace hurl Json.gap_nil)
    have hdataPath : Json.SpellsMember (some "data_path", .ofString "/srv") _ :=
      .intro hspace (hself _ (by decide)) Json.gap_nil (.intro hspace hpath hspace)
    have hspells := Json.Spells.record (.cons hclient (.last hdataPath))
    have hparts : ({ dataPath := "/srv", client := some { url := "http://ch" } } : Choice).Parts
        (some (.list [.ofString "http://ch"] none)) none :=
      ⟨.some (.list (by decide)), .none⟩
    exact (decodes_every_spelling hspells.padded).1 _ ⟨_, _, hparts, .record (.swap _ _ [])⟩
  · -- The field that is repeated is one of the removals, which come before the data directory.
    have hmember : ∀ c ds, c ≠ '0' ∧ (c :: ds).all Text.isDigit →
        Json.SpellsMember (some "max_attempts", .number ⟨false, c :: ds, none, none⟩) _ :=
      fun c ds h => .intro Json.gap_nil (hself _ (by decide)) Json.gap_nil (hdigits c ds h).padded
    have hinner := Json.Spells.record
      (.cons (hmember '1' [] (by decide)) (.last (hmember '2' [] (by decide))))
    have hspells := Json.Spells.record (.cons (.intro (k := "teardown") Json.gap_nil
      (hself _ (by decide)) Json.gap_nil hinner.padded) (.last hsrv))
    have hone : Begins TeardownConfig.Whole [("max_attempts", .ofNat 1)] :=
      ⟨_, [], ⟨{ maxAttempts := some 1 }, rfl⟩, .refl _⟩
    have hstrays := Layout.Strays.repeated (l := TeardownConfig.layout) hone (k := "max_attempts")
      (by decide) (.number ⟨false, ['2'], none, none⟩) [] none
    exact (decodes_every_spelling hspells.padded).2.1 _
      (.teardown hstrays (.record hbegins (by decide) [_] none))
  · let n : Numeral := ⟨false, "18446744073709551616".toList, none, none⟩
    have hmember : Json.SpellsMember (some "timeout_secs", .number n) _ :=
      .intro Json.gap_nil (hself _ (by decide)) Json.gap_nil
        (hdigits '1' "8446744073709551616".toList (by decide)).padded
    have hspells := Json.Spells.record (.cons (.intro (k := "client") Json.gap_nil
      (hself _ (by decide)) Json.gap_nil (Json.Spells.record (.last hmember)).padded) (.last hsrv))
    have hnone : Begins ClientConfig.Whole [] := ⟨_, _, ⟨{}, rfl⟩, .refl _⟩
    have hbeyond : n.Beyond 64 := ⟨rfl, rfl, .inr (by decide)⟩
    have hrange : ClientConfig.layout.OutOfRange ClientConfig.Whole ClientConfig.numbers
        (.record (named [("timeout_secs", .number n)]) none) :=
      ⟨_, 64, n, by decide, hbeyond, .record hnone (by decide) [] none⟩
    exact (decodes_every_spelling hspells.padded).2.2.1
      (.client hrange (.record hbegins (by decide) [_] none))

end Config

end TableSnapshots
