import TableSnapshots.Proofs.Json.Natural
import TableSnapshots.Proofs.Json.Quoted
import TableSnapshots.Proofs.Json.Reading

/-!
# Records of texts and numbers

A record is written as one of its spellings if its values are (`spellsMembers_compactMembers`). So
the record of some fields whose drafts are known is read back as these (`ofText_record`). Nothing in
it is below the blank if nothing in the texts of its values is (`plain_compactMembers`).
-/

namespace TableSnapshots.Json

/-! ## Records -/

/-- A field with the draft that its value is written for. -/
structure Known where
  name : String
  value : Json
  draft : Draft
  /-- The text of the value is one of its spellings. -/
  spells : Spells draft (compact value).toList

namespace Known

/-- The field as it is written. -/
def member (f : Known) : String × Json :=
  (f.name, f.value)

/-- The field as it is read. -/
def readMember (f : Known) : Option String × Draft :=
  (some f.name, f.draft)

/-- A field that is a text. -/
def text (name s : String) : Known :=
  ⟨name, .text s, .text (some s), spells_quote s⟩

/-- A field that is a natural number. -/
def natural (name : String) (n : Nat) : Known :=
  ⟨name, .integer n, .number (Json.natural n), spells_natural n⟩

/-- The text of a field is that of its name and its value. -/
def fieldText (f : Known) : List Char :=
  (quote f.name).toList ++ ':' :: (compact f.value).toList

/-- It is a spelling of the field. -/
theorem spellsMember (f : Known) : SpellsMember f.readMember f.fieldText := by
  unfold fieldText
  rw [toList_quote, List.cons_append, List.append_assoc]
  exact .intro gap_nil (spellsChars_flatMap f.name.toList) gap_nil f.spells.padded

/-- The text of one field. -/
theorem toList_single (f : Known) : (compactMembers [f.member]).toList = f.fieldText := by
  rw [member, compactMembers, fieldText, String.toList_append, String.toList_append,
    List.append_assoc]
  rfl

/-- The text of more fields is that of the first one, and then that of the others. -/
theorem toList_cons (f g : Known) (fs : List Known) :
    (compactMembers ((f :: g :: fs).map member)).toList
      = f.fieldText ++ ',' :: (compactMembers ((g :: fs).map member)).toList := by
  rw [List.map_cons, List.map_cons, member, member, compactMembers, fieldText]
  simp only [String.toList_append, List.append_assoc]
  rfl

/-- The text of some fields is a spelling of them. -/
theorem spellsMembers_compactMembers (f : Known) (fs : List Known) :
    SpellsMembers ((f :: fs).map readMember) (compactMembers ((f :: fs).map member)).toList := by
  induction fs generalizing f with
  | nil =>
    rw [List.map_singleton, List.map_singleton, toList_single]
    exact .last f.spellsMember
  | cons g fs ih =>
    rw [toList_cons, List.map_cons]
    exact .cons f.spellsMember (ih g)

end Known

/-- The text of a record is a spelling of it. -/
theorem spells_record (f : Known) (fs : List Known) :
    Spells (.record ((f :: fs).map Known.readMember) none)
      (compact (.record ((f :: fs).map Known.member))).toList := by
  rw [compact, String.toList_append, String.toList_append, List.append_assoc]
  exact .record (f.spellsMembers_compactMembers fs)

/-- The record of some fields is read as the fields that it was written for. -/
theorem ofText_record (f : Known) (fs : List Known) :
    Document.ofText (compact (.record ((f :: fs).map Known.member)))
      = ⟨.record ((f :: fs).map Known.readMember) none, false⟩ :=
  Document.ofText_of_spells (spells_record f fs).padded

/-! ## What no record has in it -/

/-- No character of a text is below the blank, so none is a line break. -/
def Plain (s : String) : Prop :=
  ∀ c ∈ s.toList, 32 ≤ c.toNat

instance : DecidablePred Plain := fun s =>
  decidable_of_iff (s.toList.all fun c => 32 ≤ c.toNat) (by simp [Plain, List.all_eq_true])

/-- Two plain texts make one. -/
theorem Plain.append {s s' : String} (h : Plain s) (h' : Plain s') : Plain (s ++ s') := by
  intro c hc
  rw [String.toList_append, List.mem_append] at hc
  exact hc.elim (h c) (h' c)

/-- Whatever it is that is quoted, the quoted text is plain. -/
theorem plain_quote (s : String) : Plain (quote s) :=
  fun _ => le_toNat_of_mem_quote

/-- The decimal of a number is plain. -/
theorem plain_decimal (n : Nat) : Plain (Text.decimal n) := by
  intro c hc
  have hlow := (Text.toNat_of_isDigit (Text.isDigit_of_mem_decimal hc)).1
  omega

/-- A record is plain if the texts of its values are. -/
theorem plain_compactMembers {ms : List (String × Json)} (h : ∀ m ∈ ms, Plain (compact m.2)) :
    Plain (compactMembers ms) := by
  have hcolon : Plain ":" := by decide
  have hcomma : Plain "," := by decide
  induction ms with
  | nil =>
    rw [compactMembers]
    decide
  | cons m ms ih =>
    have hvalue := h m List.mem_cons_self
    have hfield := ((plain_quote m.1).append hcolon).append hvalue
    cases ms with
    | nil => rwa [compactMembers]
    | cons m' ms =>
      rw [compactMembers]
      exact (hfield.append hcomma).append (ih fun n hn => h n (List.mem_cons_of_mem m hn))

/-- So it has no line break in it. -/
theorem Plain.not_mem {s : String} (h : Plain s) {c : Char} (hc : c.toNat < 32) : c ∉ s.toList :=
  fun hmem => Nat.not_lt.mpr (h c hmem) hc

end TableSnapshots.Json
