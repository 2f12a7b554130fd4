import TableSnapshots.Part.Basic
import TableSnapshots.Proofs.Json.Record

/-!
# Lines of frozen parts

A frozen part that was written as a line of JSON is read back as it was (`ofLine_toLine`), whatever
characters its texts have, and the line has no line break in it (`plain_toLine`).
-/

namespace TableSnapshots.FrozenPart

open Json (Draft Known natural)

/-- The fields of a part after the first one. -/
def knownOthers (p : FrozenPart) : List Known :=
  [Known.text "table" p.table, Known.text "name" p.name, Known.text "path" p.path.text,
    Known.text "checksum" p.checksum, Known.natural "size" p.size]

/-- The fields of a part are read as they were written. -/
theorem members_eq (p : FrozenPart) :
    p.members = (Known.text "database" p.database :: p.knownOthers).map Known.member := rfl

/-- A field that the layout has and that was not given before is taken. -/
theorem collectMembers_cons {σ α : Type} {l : Json.Layout σ α} {k : String} {d : Draft} {s s' : σ}
    {f : Json.Field σ} (hfield : l.fields.find? (·.name = k) = some f) (hnew : f.present s = false)
    (htake : f.take d s = .ok s') (rest : List (Option String × Draft)) :
    l.collectMembers ((some k, d) :: rest) s = l.collectMembers rest s' := by
  rw [Json.Layout.collectMembers, hfield]
  dsimp only
  rw [hnew, if_neg Bool.false_ne_true, htake]
  rfl

/-- The layout of a part takes every field once, in the order in which they are written. -/
theorem collectMembers_known {p : FrozenPart} (h : p.size < wordCount 64) :
    layout.collectMembers ((Known.text "database" p.database :: p.knownOthers).map
        Known.readMember) {}
      = .ok ⟨p.database, p.table, p.name, p.path.text, p.checksum, p.size⟩ := by
  let others : Given := ⟨p.database, p.table, p.name, p.path.text, p.checksum, none⟩
  have hsize : ((Draft.number (natural p.size)).toUnsigned 64 >>= fun n =>
      pure { others with size := some n }) = .ok { others with size := some p.size } := by
    rw [Json.toUnsigned_natural (Nat.le_refl 64) h]
    rfl
  -- Five texts are taken as they are, and the size because it fits.
  calc _ = _ := collectMembers_cons rfl rfl rfl _
    _ = _ := collectMembers_cons rfl rfl rfl _
    _ = _ := collectMembers_cons rfl rfl rfl _
    _ = _ := collectMembers_cons rfl rfl rfl _
    _ = _ := collectMembers_cons rfl rfl rfl _
    _ = _ := collectMembers_cons rfl rfl hsize _

/-- So the part is made of them again. -/
theorem read_layout {p : FrozenPart} (h : p.size < wordCount 64) :
    layout.read (.record ((Known.text "database" p.database :: p.knownOthers).map
      Known.readMember) none) = .ok p := by
  have hcollect := collectMembers_known h
  unfold Json.Layout.read
  dsimp only
  rw [show layout.empty = {} from rfl, hcollect]
  rfl

/-- A part is read from its line. -/
theorem ofLine_toLine {p : FrozenPart} (h : p.size < wordCount 64) : ofLine p.toLine = .ok p := by
  unfold ofLine toLine
  rw [members_eq, Json.ofText_record]
  unfold Json.Document.read
  dsimp only
  rw [read_layout h]
  rfl

/-- No line of a part has a character below the blank in it. -/
theorem plain_toLine (p : FrozenPart) : Json.Plain p.toLine := by
  have hopen : Json.Plain "\x7b" := by decide
  have hclose : Json.Plain "\x7d" := by decide
  have hmembers : ∀ m ∈ p.members, Json.Plain (Json.compact m.2) := by
    have htext : ∀ s, Json.Plain (Json.compact (.text s)) := fun s => Json.plain_quote s
    have hsize : Json.Plain (Json.compact (.integer p.size)) := Json.plain_decimal p.size
    simp only [members, List.forall_mem_cons]
    exact ⟨htext _, htext _, htext _, htext _, htext _, hsize, nofun⟩
  unfold toLine
  rw [Json.compact]
  exact (hopen.append (Json.plain_compactMembers hmembers)).append hclose

end TableSnapshots.FrozenPart
