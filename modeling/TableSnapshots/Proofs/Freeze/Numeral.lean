import TableSnapshots.Proofs.Freeze.Counter
import TableSnapshots.Proofs.Freeze.Enumeration
import TableSnapshots.Proofs.Text.Bytes
import TableSnapshots.Proofs.Text.Spelling
import TableSnapshots.Proofs.Tree.Entry

/-!
# What the counter's file may hold

The file with the number of the latest freeze is written by another program and can hold any bytes.
They are read as a number exactly if they are a text that spells it and a word of 64 bits can hold
it, and everything else is invalid data (`readGeneration_eq_ok_iff`, `kind_of_readGeneration`). A
file that is not where a directory should have it is missing (`Tree.readFile_of_lacks`). What was
read goes back into a path in its shortest spelling, as one name below the shadow directory
(`components_frozenPath`), so beyond the number the bytes have no say in where parts are looked for
(`generation_of_every_counter`).
-/

namespace TableSnapshots

/-! ## A file that is not there -/

namespace Tree

/-- What a path names is not there: steps along the path, with the links that they meet, lead to a
directory, and the directory has no entry of the next name. -/
def Lacks (t : Tree) (p : Path) : Prop :=
  ∃ before s after dir, Step.ofText p.text = before ++ .name s :: after ∧
    t.walk true linkLimit [] before = .ok dir ∧ t.content? dir = some .directory ∧
    s.utf8ByteSize ≤ nameLimit ∧ t.content? (dir ++ [s]) = none

/-- Then there is no file to read. -/
theorem readFile_of_lacks {t : Tree} {p : Path} (htext : checkText p.text = .ok ())
    (h : t.Lacks p) : t.readFile p = .error .missing := by
  obtain ⟨before, s, after, dir, hsteps, hwalk, hdir, hshort, hnone⟩ := h
  have hadvance : t.advance true dir (.name s :: after) = .error .missing := by
    rw [advance_name, if_neg (Nat.not_lt.mpr hshort), hnone]
  have hresolve : t.resolve true p = .error .missing := by
    obtain ⟨fewer, hrest⟩ : ∃ fewer, t.walk true linkLimit [] (before ++ .name s :: after)
        = t.walk true fewer dir (.name s :: after) :=
      walk_append (List.cons_ne_nil _ _) hwalk hdir
    rw [resolve_eq_walk htext, hsteps, hrest]
    exact walk_of_error hadvance
  unfold readFile
  rw [hresolve]
  rfl

end Tree

namespace Controller

open Text (Spelling)

/-! ## The bytes of the file -/

/-- Bytes are read as a number exactly if they are a text that spells it and a word of 64 bits can
hold it. -/
theorem readGeneration_eq_ok_iff {bytes : ByteArray} {n : Nat} :
    readGeneration bytes = .ok n
      ↔ (∃ m : Spelling, bytes = m.text.toUTF8 ∧ m.number = n) ∧ n < wordCount 64 := by
  unfold readGeneration
  constructor
  · intro h
    cases hutf8 : String.fromUTF8? bytes with
    | none =>
      rw [hutf8] at h
      cases h
    | some text =>
      rw [hutf8] at h
      dsimp only at h
      cases hread : Text.readUnsigned? 64 (Text.trimChars text.toList) with
      | none =>
        rw [hread] at h
        cases h
      | some k =>
        rw [hread] at h
        cases h
        obtain ⟨⟨m, rfl, hnumber⟩, hbound⟩ := Text.readUnsigned?_trimChars_eq_some_iff.mp hread
        exact ⟨⟨m, Text.fromUTF8?_eq_some_iff.mp hutf8, hnumber⟩, hbound⟩
  · rintro ⟨⟨m, rfl, hnumber⟩, hbound⟩
    have hread := Text.readUnsigned?_trimChars_eq_some_iff.mpr ⟨⟨m, rfl, hnumber⟩, hbound⟩
    rw [Text.fromUTF8?_toUTF8]
    dsimp only
    rw [hread]

/-- Bytes that are not read are invalid data, whether they are a text or not. -/
theorem kind_of_readGeneration {bytes : ByteArray} {fault : Fault}
    (h : readGeneration bytes = .error fault) : fault.kind = .invalidData := by
  unfold readGeneration at h
  split at h
  · cases h
    rfl
  · split at h
    · cases h
    · cases h
      rfl

/-! ## The directory of the number -/

section Place

variable {m : Type → Type} {host : Host m} {config : Config} {c : Controller m} {p relative : Path}

/-- What is taken of a table's path does not start at the root, but if the engine's directory has no
text and the table's path starts there. -/
theorem isAbsolute_of_relativePath (hc : c.Serves host config)
    (h : c.relativePath p = .ok relative)
    (hplace : config.dataPath.text ≠ "" ∨ p.isAbsolute = false) : relative.isAbsolute = false := by
  obtain ⟨haccepts, rfl⟩ := eq_remainder_of_relativePath hc h
  by_cases htext : config.dataPath.text = ""
  · rw [Path.components_of_text_eq_empty htext, List.length_nil, Path.isAbsolute_remainder_zero]
    exact hplace.resolve_left (not_not.mpr htext)
  · obtain ⟨n, hn⟩ := Config.exists_length htext
    rw [hn]
    exact Path.not_isAbsolute_remainder (PathGuard.text_ne_empty_of_accepts htext haccepts) n

/-- The directory of a freeze has the components of the shadow directory, the decimal of the number,
and those of what was taken of the table's path, of which a `.` at the start adds nothing. -/
theorem components_frozenPath (hc : c.Serves host config) (number : Nat)
    (hrelative : relative.isAbsolute = false) :
    (c.frozenPath number relative).components
      = c.shadowRoot.root.components
        ++ .name (Text.decimal number) :: relative.components.filter (· ≠ .here) := by
  have hname := Path.isName_decimal number
  have hshadow : c.shadowRoot.root.text ≠ "" := by
    rw [hc.shadowRoot]
    exact config.dataPath.entry_text_ne_empty (by decide)
  unfold frozenPath
  rw [Path.components_join hrelative (Path.entry_text_ne_empty _ hname.ne_empty),
    Path.filterMap_component?_pieces hrelative, Path.components_entry hname hshadow,
    List.append_assoc, List.singleton_append]

end Place

/-! ## Reading the file -/

variable {σ : Type} {engine : Engine σ} {delegate : Delegate} {config : Config}
  {c : Controller (StateM (World σ))}

/-- The number is that of the file's bytes. -/
theorem run_generation_of_bytes (hc : c.Serves (World.host engine delegate) config) {w : World σ}
    {bytes : ByteArray} (h : w.tree.readFile c.incrementPath = .ok bytes) :
    c.generation.run.run w
      = ((readGeneration bytes).mapError (.generation c.incrementPath), w) := by
  rw [run_generation hc, h]
  rfl

/-- A file that cannot be read gives no number. -/
theorem run_generation_of_fault (hc : c.Serves (World.host engine delegate) config) {w : World σ}
    {fault : Fault} (h : w.tree.readFile c.incrementPath = .error fault) :
    c.generation.run.run w = (.error (.generation c.incrementPath fault), w) := by
  rw [run_generation hc, h]
  rfl

/-- A number was read exactly if the bytes are read as it. -/
theorem run_generation_eq_ok_iff (hc : c.Serves (World.host engine delegate) config) {w : World σ}
    {bytes : ByteArray} (h : w.tree.readFile c.incrementPath = .ok bytes) {n : Nat} :
    c.generation.run.run w = (.ok n, w) ↔ readGeneration bytes = .ok n := by
  rw [run_generation_of_bytes hc h]
  cases readGeneration bytes with
  | error fault => constructor <;> intro heq <;> cases heq
  | ok k => constructor <;> intro heq <;> cases heq <;> rfl

/-- Once the number was read, the parts are those in its directory. -/
theorem run_collectParts_of_generation (hc : c.Serves (World.host engine delegate) config)
    {w : World σ} {number : Nat} (h : c.generation.run.run w = (.ok number, w))
    (db table : String) (relative : Path) :
    (c.collectParts db table relative).run.run w
      = ((w.tree.parts (c.frozenPath number relative) db table).mapError
          (.file (c.frozenPath number relative)), w) := by
  have hnumber : w.tree.readFile config.counterPath >>= readGeneration = .ok number := by
    rw [run_generation hc, hc.incrementPath] at h
    obtain ⟨hresult, -⟩ := Prod.mk.inj h
    unfold Config.counterPath
    cases hread : w.tree.readFile ((config.dataPath.entry "shadow").entry "increment.txt")
        >>= readGeneration with
    | error fault =>
      rw [hread] at hresult
      cases hresult
    | ok k =>
      rw [hread] at hresult
      cases hresult
      rfl
  rw [run_collectParts hc, hc.frozenPath, Reference.frozenParts_of_number hnumber]

/-- The number of the latest freeze is read exactly if the bytes of the counter's file are a text
that spells it and a word of 64 bits can hold it; other bytes give an error that names the file and
says that the data are invalid. A file that cannot be read gives an error that names it and its
fault, which is that nothing is there if a directory lacks the file or one on the way to it. The
decimal of a number is read as this, whatever blanks there are around it. The parts of the freeze
are then looked for in a directory that depends on the bytes through the number alone: it goes on
from the shadow directory with the number's shortest spelling as one name, and from there as the
table's path does from the engine's directory, unless that has no text and the table's path starts
at the root. -/
theorem generation_of_every_counter (hc : c.Serves (World.host engine delegate) config)
    (w : World σ) :
    (∀ bytes, w.tree.readFile c.incrementPath = .ok bytes →
      (∀ n, c.generation.run.run w = (.ok n, w) ↔
        (∃ m : Spelling, bytes = m.text.toUTF8 ∧ m.number = n) ∧ n < wordCount 64) ∧
      ((¬ ∃ m : Spelling, bytes = m.text.toUTF8 ∧ m.number < wordCount 64) →
        ∃ fault, c.generation.run.run w = (.error (.generation c.incrementPath fault), w) ∧
          fault.kind = .invalidData)) ∧
    (∀ fault, w.tree.readFile c.incrementPath = .error fault →
      c.generation.run.run w = (.error (.generation c.incrementPath fault), w)) ∧
    (Tree.checkText c.incrementPath.text = .ok () → w.tree.Lacks c.incrementPath →
      ∃ fault, c.generation.run.run w = (.error (.generation c.incrementPath fault), w) ∧
        fault.kind = .notFound) ∧
    (∀ n before after, n < wordCount 64 → (∀ ch ∈ before, Text.isBlank ch = true) →
      (∀ ch ∈ after, Text.isBlank ch = true) →
      w.tree.readFile c.incrementPath
          = .ok (String.ofList (before ++ (Text.decimal n).toList ++ after)).toUTF8 →
      c.generation.run.run w = (.ok n, w)) ∧
    (∀ n p relative db table, c.relativePath p = .ok relative →
      c.generation.run.run w = (.ok n, w) →
      Text.Shortest (Text.decimal n) n ∧
      (c.collectParts db table relative).run.run w
        = ((w.tree.parts (c.frozenPath n relative) db table).mapError
            (.file (c.frozenPath n relative)), w) ∧
      (config.dataPath.text ≠ "" ∨ p.isAbsolute = false →
        (c.frozenPath n relative).components
          = c.shadowRoot.root.components
            ++ .name (Text.decimal n) :: relative.components.filter (· ≠ .here))) := by
  have hread : ∀ bytes, w.tree.readFile c.incrementPath = .ok bytes → ∀ n,
      (c.generation.run.run w = (.ok n, w) ↔
        (∃ m : Spelling, bytes = m.text.toUTF8 ∧ m.number = n) ∧ n < wordCount 64) :=
    fun bytes hbytes n => (run_generation_eq_ok_iff hc hbytes).trans readGeneration_eq_ok_iff
  refine ⟨fun bytes hbytes => ⟨hread bytes hbytes, fun hnone => ?_⟩,
    fun fault => run_generation_of_fault hc, fun htext hlacks => ?_,
    fun n before after hbound hbefore hafter hbytes => ?_,
    fun n p relative db table hrelative hnumber => ⟨Text.shortest_decimal n,
      run_collectParts_of_generation hc hnumber db table relative, fun hplace => ?_⟩⟩
  · have hrun := run_generation_of_bytes hc hbytes
    cases hresult : readGeneration bytes with
    | ok n =>
      obtain ⟨⟨m, htext, hnumber⟩, hbound⟩ := readGeneration_eq_ok_iff.mp hresult
      exact absurd ⟨m, htext, hnumber ▸ hbound⟩ hnone
    | error fault =>
      rw [hresult] at hrun
      exact ⟨fault, hrun, kind_of_readGeneration hresult⟩
  · exact ⟨.missing, run_generation_of_fault hc (Tree.readFile_of_lacks htext hlacks), rfl⟩
  · exact (hread _ hbytes n).mpr
      ⟨⟨.ofDecimal n hbefore hafter, rfl, Spelling.number_ofDecimal n hbefore hafter⟩, hbound⟩
  · exact components_frozenPath hc n (isAbsolute_of_relativePath hc hrelative hplace)

/-- An ideographic space, a plus, zeros and the end of a line around a seven. -/
def paddedSeven : Spelling where
  before := ['\u3000']
  plus := true
  digits := ['0', '0', '7']
  after := ['\r', '\n']
  blank_before := List.all_eq_true.mp (by decide)
  blank_after := List.all_eq_true.mp (by decide)
  digits_ne_nil := by decide
  isDigit_digits := List.all_eq_true.mp (by decide)

/-- Files below `ch` with a counter of these bytes. -/
def counterTree (bytes : ByteArray) : Tree :=
  ⟨[(["ch"], { content := .directory }), (["ch", "shadow"], { content := .directory }),
    (["ch", "shadow", "increment.txt"], { content := .file bytes })]⟩

/-- The bytes are found. -/
theorem readFile_counterTree (bytes : ByteArray) :
    (counterTree bytes).readFile (Config.counterPath ⟨⟨"/ch"⟩, "u", "g", {}, {}⟩) = .ok bytes := by
  rfl

/-- Seven is read from such a spelling, and the directory is named with the one digit. -/
theorem generation_of_every_counter_padded :
    let c : Controller (StateM (World Unit)) :=
      serving (World.host (constantEngine (.ok (.text ""))) (.noted (.ok ())))
        ⟨⟨"/ch"⟩, "u", "g", {}, {}⟩ ⟨[21, 8], "21.8"⟩
    let w : World Unit := ⟨(), counterTree paddedSeven.text.toUTF8, [], [], [], [], []⟩
    c.generation.run.run w = (.ok 7, w) ∧
      ∃ relative, c.relativePath ⟨"/ch/data/db/t"⟩ = .ok relative ∧
        (c.frozenPath 7 relative).components
          = [.root, .name "ch", .name "shadow", .name "7", .name "data", .name "db",
              .name "t"] := by
  intro c w
  obtain ⟨hbytes, -, -, -, hplace⟩ := generation_of_every_counter (c := c)
    (serving_serves (World.host (constantEngine (.ok (.text ""))) (.noted (.ok ())))
      ⟨⟨"/ch"⟩, "u", "g", {}, {}⟩ ⟨[21, 8], "21.8"⟩) w
  have hread : w.tree.readFile c.incrementPath = .ok paddedSeven.text.toUTF8 :=
    readFile_counterTree _
  have hnumber : c.generation.run.run w = (.ok 7, w) :=
    ((hbytes _ hread).1 7).mpr ⟨⟨paddedSeven, rfl, by decide⟩, by decide⟩
  have hrelative := relativePath_of_liesBelow (c := c) (p := ⟨"/ch/data/db/t"⟩) (by decide)
    (by decide +kernel)
  obtain ⟨-, -, hcomponents⟩ := hplace 7 _ _ "db" "t" hrelative hnumber
  exact ⟨hnumber, _, hrelative, (hcomponents (.inl (by decide))).trans (by decide +kernel)⟩

/-- A tree in which a file stands where the shadow directory should be. -/
def shadowFile : Tree :=
  ⟨[(["ch"], { content := .directory }), (["ch", "shadow"], { content := .file ⟨#[1]⟩ })]⟩

/-- Where there is no file with the number, it is not always said that nothing is there: a file
may stand where a directory is needed. And from an engine's directory without a text the directory
of a freeze does not always have the number in it. -/
theorem not_missing_of_absent :
    (¬ ∀ (config : Config) (c : Controller (StateM (World Unit))) (w : World Unit),
      c.Serves (World.host (constantEngine (.ok (.text ""))) (.noted (.ok ()))) config →
        w.tree.WellFormed → w.tree.content? c.incrementPath.names = none →
        ∃ fault, c.generation.run.run w = (.error (.generation c.incrementPath fault), w) ∧
          fault.kind = .notFound) ∧
    ¬ ∀ (config : Config) (c : Controller (StateM (World Unit))) (p relative : Path) (n : Nat),
      c.Serves (World.host (constantEngine (.ok (.text ""))) (.noted (.ok ()))) config →
        c.relativePath p = .ok relative →
        c.shadowRoot.root.components ++ [.name (Text.decimal n)]
          <+: (c.frozenPath n relative).components := by
  constructor
  · -- A file stands in the place of the shadow directory.
    intro hall
    have hserves := serving_serves (World.host (constantEngine (.ok (.text ""))) (.noted (.ok ())))
      ⟨⟨"/ch"⟩, "u", "g", {}, {}⟩ ⟨[21, 8], "21.8"⟩
    let w : World Unit := ⟨(), shadowFile, [], [], [], [], []⟩
    have hread : w.tree.readFile (Controller.incrementPath (serving
        (World.host (constantEngine (.ok (.text ""))) (.noted (.ok ())))
        ⟨⟨"/ch"⟩, "u", "g", {}, {}⟩ ⟨[21, 8], "21.8"⟩)) = .error .notDirectory := by rfl
    obtain ⟨fault, hfault, hkind⟩ := hall _ _ w hserves (by decide +kernel) (by rfl)
    rw [run_generation_of_fault hserves hread] at hfault
    cases hfault
    cases hkind
  · -- What is taken of an absolute path starts at the root, and joining it drops what came before.
    intro hall
    have hserves := serving_serves (World.host (constantEngine (.ok (.text ""))) (.noted (.ok ())))
      ⟨⟨""⟩, "u", "g", {}, {}⟩ ⟨[21, 8], "21.8"⟩
    have hprefix := hall _ _ _ _ 1 hserves (relativePath_ch _ _)
    rw [(frozenPath_of_absolute hserves (relativePath_ch _ _) 1 rfl (by decide +kernel)).1]
      at hprefix
    revert hprefix
    decide +kernel

end Controller

end TableSnapshots
