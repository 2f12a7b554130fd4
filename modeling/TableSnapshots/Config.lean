import TableSnapshots.Json.Layout
import TableSnapshots.Path.Basic
import TableSnapshots.Retry.Policy

/-!
# Configuration

Where the engine keeps its data, who owns it, how the server is reached, and how patiently frozen
data is removed. Everything but the data directory has a default. A field that does not exist is
refused, so that a misspelled one is not silently ignored.
-/

namespace TableSnapshots

/-- How the server is reached. -/
structure ClientConfig where
  url : String := "http://localhost:8123"
  user : String := "default"
  password : String := ""
  timeoutSeconds : Nat := 60
  deriving DecidableEq, Repr

/-- How patiently frozen data is removed. -/
structure TeardownConfig where
  maxAttempts : UInt32 := 5
  baseDelayMillis : Nat := 100
  maxDelayMillis : Nat := 2000
  deriving DecidableEq, Repr

/-- A configuration. -/
structure Config where
  /-- The engine's directory, with `data` and `shadow` in it. -/
  dataPath : Path
  user : String := "clickhouse"
  group : String := "clickhouse"
  client : ClientConfig := {}
  teardown : TeardownConfig := {}
  deriving DecidableEq, Repr

/-- The retry policy for removals. -/
def TeardownConfig.retryPolicy (t : TeardownConfig) : RetryPolicy :=
  (RetryPolicy.standard.withMaxAttempts t.maxAttempts).withDelays
    (.ofMillis t.baseDelayMillis) (.ofMillis t.maxDelayMillis)

/-! ## Reading -/

open Json (Draft Field Layout ReadError)

/-- The fields of a client configuration that were given. -/
structure ClientConfig.Given where
  url : Option String := none
  user : Option String := none
  password : Option String := none
  timeoutSeconds : Option Nat := none

/-- The fields of a client configuration. -/
def ClientConfig.layout : Layout ClientConfig.Given ClientConfig where
  title := "struct ClientConfig"
  fields := [
    { name := "url", present := fun g => g.url.isSome, optional := true
      take := fun d g => do return { g with url := some (← d.toText "a string") } },
    { name := "user", present := fun g => g.user.isSome, optional := true
      take := fun d g => do return { g with user := some (← d.toText "a string") } },
    { name := "password", present := fun g => g.password.isSome, optional := true
      take := fun d g => do return { g with password := some (← d.toText "a string") } },
    { name := "timeout_secs", present := fun g => g.timeoutSeconds.isSome, optional := true
      take := fun d g => do return { g with timeoutSeconds := some (← d.toUnsigned 64) } }]
  strict := true
  empty := {}
  build := fun g =>
    let standard : ClientConfig := {}
    .ok {
      url := g.url.getD standard.url
      user := g.user.getD standard.user
      password := g.password.getD standard.password
      timeoutSeconds := g.timeoutSeconds.getD standard.timeoutSeconds }

/-- The fields of a teardown configuration that were given. -/
structure TeardownConfig.Given where
  maxAttempts : Option Nat := none
  baseDelayMillis : Option Nat := none
  maxDelayMillis : Option Nat := none

/-- The fields of a teardown configuration. -/
def TeardownConfig.layout : Layout TeardownConfig.Given TeardownConfig where
  title := "struct TeardownConfig"
  fields := [
    { name := "max_attempts", present := fun g => g.maxAttempts.isSome, optional := true
      take := fun d g => do return { g with maxAttempts := some (← d.toUnsigned 32) } },
    { name := "base_delay_ms", present := fun g => g.baseDelayMillis.isSome, optional := true
      take := fun d g => do return { g with baseDelayMillis := some (← d.toUnsigned 64) } },
    { name := "max_delay_ms", present := fun g => g.maxDelayMillis.isSome, optional := true
      take := fun d g => do return { g with maxDelayMillis := some (← d.toUnsigned 64) } }]
  strict := true
  empty := {}
  build := fun g =>
    let standard : TeardownConfig := {}
    .ok {
      maxAttempts := (g.maxAttempts.map Nat.toUInt32).getD standard.maxAttempts
      baseDelayMillis := g.baseDelayMillis.getD standard.baseDelayMillis
      maxDelayMillis := g.maxDelayMillis.getD standard.maxDelayMillis }

namespace Config

/-- The fields of a configuration that were given. -/
structure Given where
  dataPath : Option String := none
  user : Option String := none
  group : Option String := none
  client : Option ClientConfig := none
  teardown : Option TeardownConfig := none

/-- The fields of a configuration. -/
def layout : Layout Given Config where
  title := "struct Config"
  fields := [
    { name := "data_path", present := fun g => g.dataPath.isSome, optional := false
      take := fun d g => do return { g with dataPath := some (← d.toText "path string") } },
    { name := "user", present := fun g => g.user.isSome, optional := true
      take := fun d g => do return { g with user := some (← d.toText "a string") } },
    { name := "group", present := fun g => g.group.isSome, optional := true
      take := fun d g => do return { g with group := some (← d.toText "a string") } },
    { name := "client", present := fun g => g.client.isSome, optional := true
      take := fun d g => do return { g with client := some (← ClientConfig.layout.read d) } },
    { name := "teardown", present := fun g => g.teardown.isSome, optional := true
      take := fun d g => do return { g with teardown := some (← TeardownConfig.layout.read d) } }]
  strict := true
  empty := {}
  build := fun g =>
    match g.dataPath with
    | none => .error (.mismatch (.missingField "data_path"))
    | some dataPath =>
      let standard : Config := { dataPath := ⟨dataPath⟩ }
      .ok {
        dataPath := ⟨dataPath⟩
        user := g.user.getD standard.user
        group := g.group.getD standard.group
        client := g.client.getD standard.client
        teardown := g.teardown.getD standard.teardown }

/-- Read a configuration from a JSON text. -/
def ofText (s : String) : Except ReadError Config :=
  (Json.Document.ofText s).read layout.read

end Config

end TableSnapshots
