import TableSnapshots.Proofs.Path.Extension
import TableSnapshots.Proofs.Tree.Looks

/-!
# What a path needs

A path leads to the same place in every tree that has the same content at the locations that are
looked up along it (`resolve_congr`), and the same file is read there (`readFile_congr`). Of a path
that goes on from `root` these are the ones along `root`, and then, where no link is met, those
along the other names from the place on that `root` leads to (`mem_looks_of_extends`). That place is
on the way of the path (`LeadsTo.exists_base`).
-/

namespace TableSnapshots.Tree

variable {t t' : Tree} {followLast : Bool}

/-! ## In another tree -/

section Congr

variable {dir : Location} {steps : List Step}

/-- Steps come to the same halt if the same is at the locations that they look up. -/
theorem advance_congr (h : ∀ l ∈ t.advanceLooks dir steps, t'.content? l = t.content? l) :
    t'.advance followLast dir steps = t.advance followLast dir steps := by
  -- Only a name looks anything up, and its location comes first in the list.
  induction steps generalizing dir with
  | nil => rfl
  | cons step rest ih =>
    cases step with
    | here => exact ih h
    | up => exact ih h
    | name s =>
      rw [advance_name, advance_name]
      rw [advanceLooks] at h
      split
      · rfl
      · next hlong =>
        rw [if_neg hlong] at h
        rw [h _ List.mem_cons_self]
        cases hcontent : t.content? (dir ++ [s]) with
        | none => rfl
        | some content =>
          rw [hcontent] at h
          cases content with
          | directory => exact ih fun l hl => h l (List.mem_cons_of_mem _ hl)
          | file bytes => rfl
          | link target => rfl

/-- So do they through links. -/
theorem walk_congr {links : Nat}
    (h : ∀ l ∈ t.walkLooks followLast links dir steps, t'.content? l = t.content? l) :
    t'.walk followLast links dir steps = t.walk followLast links dir steps := by
  induction links generalizing dir steps with
  | zero => rw [walk, walk, advance_congr h]
  | succ links ih =>
    rw [walkLooks] at h
    have hfirst : t'.advance followLast dir steps = t.advance followLast dir steps :=
      advance_congr fun l hl => h l (List.mem_append_left _ hl)
    rw [walk, walk, hfirst]
    cases hadvance : t.advance followLast dir steps with
    | error fault => rfl
    | ok halt =>
      cases halt with
      | arrived loc => rfl
      | detour dir' target rest =>
        -- The same link is met in both trees, and one less may be followed after it.
        rw [hadvance] at h
        exact ih fun l hl => h l (List.mem_append_right _ hl)

/-- A path leads to the same place. -/
theorem resolve_congr {p : Path}
    (h : ∀ l ∈ t.looks followLast p, t'.content? l = t.content? l) :
    t'.resolve followLast p = t.resolve followLast p := by
  unfold looks at h
  cases htext : checkText p.text with
  | error fault => rw [resolve_of_refused htext, resolve_of_refused htext]
  | ok _ =>
    rw [htext] at h
    rw [resolve_eq_walk htext, resolve_eq_walk htext]
    exact walk_congr h

end Congr

/-! ## The same file -/

/-- Every location from the top down to `dir` is that of a directory. -/
def Trodden (t : Tree) (dir : Location) : Prop :=
  ∀ q, q <+: dir → t.content? q = some .directory

/-- The top is reached through nothing but itself. -/
theorem trodden_nil (t : Tree) : t.Trodden [] := by
  intro q hq
  rw [List.prefix_nil.mp hq]
  rfl

section Trodden

variable {dir : Location} {steps : List Step}

/-- A directory in a directory that was reached is reached as well. -/
theorem Trodden.concat (hdir : t.Trodden dir) {s : String}
    (h : t.content? (dir ++ [s]) = some .directory) : t.Trodden (dir ++ [s]) := by
  intro q hq
  rcases List.prefix_concat_iff.mp hq with rfl | hq
  · exact h
  · exact hdir q hq

/-- So is the directory above. -/
theorem Trodden.dropLast (hdir : t.Trodden dir) : t.Trodden dir.dropLast :=
  fun q hq => hdir q (hq.trans (List.dropLast_prefix dir))

/-- Steps from there that come to a link have reached the directory that it is in. -/
theorem Trodden.of_detour (hdir : t.Trodden dir) {dir' : Location} {target : String}
    {rest : List Step} (h : t.advance followLast dir steps = .ok (.detour dir' target rest)) :
    t.Trodden dir' := by
  induction steps generalizing dir with
  | nil => cases h
  | cons step steps ih =>
    cases step with
    | here => exact ih hdir h
    | up => exact ih hdir.dropLast h
    | name s =>
      rw [advance_name] at h
      split at h
      · cases h
      · split at h
        · cases h
        · next hdirectory => exact ih (hdir.concat hdirectory) h
        · split at h <;> cases h
        · split at h <;> cases h
          exact hdir

/-- A target is looked for from such a directory, or from the top. -/
theorem Trodden.origin (hdir : t.Trodden dir) (target : String) :
    t.Trodden (origin dir target) := by
  unfold Tree.origin
  split
  · exact trodden_nil t
  · exact hdir

variable {loc : Location} {bytes : ByteArray} (hfile : t.content? loc = some (.file bytes))
include hfile

/-- Steps that arrive at a file have looked it up. -/
theorem mem_advanceLooks_of_file (hdir : t.Trodden dir)
    (h : t.advance followLast dir steps = .ok (.arrived loc)) : loc ∈ t.advanceLooks dir steps := by
  -- A stay or a step up leaves the steps in a directory, so the last step went to the file's name.
  induction steps generalizing dir with
  | nil =>
    cases h
    rw [hdir _ List.prefix_rfl] at hfile
    cases hfile
  | cons step steps ih =>
    cases step with
    | here => exact ih hdir h
    | up => exact ih hdir.dropLast h
    | name s =>
      rw [advance_name] at h
      rw [advanceLooks]
      split at h
      · cases h
      · next hlong =>
        rw [if_neg hlong]
        split at h
        · cases h
        · next hdirectory =>
          rw [hdirectory]
          exact List.mem_cons_of_mem _ (ih (hdir.concat hdirectory) h)
        · split at h <;> cases h
          exact List.mem_cons_self
        · split at h <;> cases h
          exact List.mem_cons_self

/-- So have steps that find one through links. -/
theorem mem_walkLooks_of_file {links : Nat} (hdir : t.Trodden dir)
    (h : t.walk followLast links dir steps = .ok loc) :
    loc ∈ t.walkLooks followLast links dir steps := by
  induction links generalizing dir steps with
  | zero =>
    rcases of_walk_eq_ok h with harrived | ⟨_, _, _, _, hlinks, -⟩
    · exact mem_advanceLooks_of_file hfile hdir harrived
    · cases hlinks
  | succ links ih =>
    rw [walkLooks, List.mem_append]
    rcases of_walk_eq_ok h with harrived | ⟨_, dir', target, rest, hlinks, hdetour, hnext⟩
    · exact .inl (mem_advanceLooks_of_file hfile hdir harrived)
    · cases hlinks
      rw [hdetour]
      exact .inr (ih ((hdir.of_detour hdetour).origin target) hnext)

/-- A file that a path leads to is looked up along it. -/
theorem mem_looks_of_file {p : Path} (h : t.resolve followLast p = .ok loc) :
    loc ∈ t.looks followLast p := by
  unfold looks
  cases htext : checkText p.text with
  | error fault =>
    rw [resolve_of_refused htext] at h
    cases h
  | ok _ =>
    rw [resolve_eq_walk htext] at h
    exact mem_walkLooks_of_file hfile (trodden_nil t) h

end Trodden

/-- A file that can be read is read as it is wherever the same is looked up along its path. -/
theorem readFile_congr {p : Path} {bytes : ByteArray} (hread : t.readFile p = .ok bytes)
    (h : ∀ l ∈ t.looks true p, t'.content? l = t.content? l) : t'.readFile p = .ok bytes := by
  obtain ⟨loc, hloc, hfile⟩ := readFile_eq_ok_iff.mp hread
  refine readFile_eq_ok_iff.mpr ⟨loc, ?_, ?_⟩
  · rw [resolve_congr h, hloc]
  · rw [h loc (mem_looks_of_file hfile hloc), hfile]

/-! ## Steps and others after them -/

section Append

variable {dir l : Location} {xs ys : List Step}

/-- Steps and others after them look up what the first ones do, and from where these arrive what the
others do. -/
theorem mem_advanceLooks_append (h : l ∈ t.advanceLooks dir (xs ++ ys)) :
    l ∈ t.advanceLooks dir xs ∨
      ∃ mid, t.advance true dir xs = .ok (.arrived mid) ∧ l ∈ t.advanceLooks mid ys := by
  induction xs generalizing dir with
  | nil => exact .inr ⟨dir, rfl, h⟩
  | cons step xs ih =>
    cases step with
    | here => exact ih h
    | up => exact ih h
    | name s =>
      rw [List.cons_append, advanceLooks] at h
      rw [advance_name, advanceLooks]
      split at h
      · cases h
      · next hlong =>
        rw [if_neg hlong, if_neg hlong]
        rcases List.mem_cons.mp h with rfl | hrest
        · exact .inl List.mem_cons_self
        · split at hrest
          · next hdirectory =>
            rw [hdirectory]
            exact (ih hrest).imp_left (List.mem_cons_of_mem _)
          · cases hrest

/-- They come to a link with the first ones, or with the others from where these arrive. -/
theorem of_detour_append {dir' : Location} {target : String} {rest : List Step}
    (h : t.advance followLast dir (xs ++ ys) = .ok (.detour dir' target rest)) :
    (∃ rest', rest = rest' ++ ys ∧ t.advance true dir xs = .ok (.detour dir' target rest')) ∨
      ∃ mid, t.advance true dir xs = .ok (.arrived mid) ∧
        t.advance followLast mid ys = .ok (.detour dir' target rest) := by
  induction xs generalizing dir with
  | nil => exact .inr ⟨dir, rfl, h⟩
  | cons step xs ih =>
    cases step with
    | here => exact ih h
    | up => exact ih h
    | name s =>
      rw [List.cons_append, advance_name] at h
      rw [advance_name]
      split at h
      · cases h
      · next hlong =>
        rw [if_neg hlong]
        split at h
        · cases h
        · exact ih h
        · split at h <;> cases h
        · -- A link: what is left is the rest of the first steps, and all the others.
          split at h
          · cases h
          · cases h
            exact .inl ⟨xs, rfl, by simp⟩

/-- Through links, steps and others after them look up what the first ones do when a link at their
end is followed, and then what the others do from where the first ones lead. -/
theorem mem_walkLooks_append {links : Nat} (h : l ∈ t.walkLooks followLast links dir (xs ++ ys)) :
    l ∈ t.walkLooks true links dir xs ∨
      ∃ mid fewer, t.Leads true dir xs mid ∧ l ∈ t.walkLooks followLast fewer mid ys := by
  induction links generalizing dir xs with
  | zero =>
    rcases mem_advanceLooks_append h with hl | ⟨mid, harrived, hl⟩
    · exact .inl hl
    · exact .inr ⟨mid, 0, leads_of_advance harrived, hl⟩
  | succ links ih =>
    rw [walkLooks, List.mem_append] at h
    rw [walkLooks, List.mem_append]
    rcases h with h | h
    · rcases mem_advanceLooks_append h with hl | ⟨mid, harrived, hl⟩
      · exact .inl (.inl hl)
      · exact .inr ⟨mid, 0, leads_of_advance harrived, hl⟩
    · split at h
      · next dir' target rest hdetour =>
        rcases of_detour_append hdetour with ⟨rest', rfl, hfirst⟩ | ⟨mid, harrived, hnext⟩
        · -- The first steps come to the link, and its target takes its place among them.
          rw [← List.append_assoc] at h
          rw [hfirst]
          rcases ih h with hl | ⟨mid, fewer, hleads, hl⟩
          · exact .inl (.inr hl)
          · exact .inr ⟨mid, fewer, leads_of_advance hfirst hleads, hl⟩
        · -- The first steps arrive, and the link is met on the others.
          refine .inr ⟨mid, links + 1, leads_of_advance harrived, ?_⟩
          rw [walkLooks, hnext]
          exact List.mem_append_right _ h
      · cases h

end Append

/-! ## Paths that go on -/

/-- The start of a text that is not refused is not refused unless it is empty. -/
theorem checkText_of_append {s more : String} (h : checkText (s ++ more) = .ok ()) (hs : s ≠ "") :
    checkText s = .ok () := by
  unfold checkText at h
  split at h
  · cases h
  · next hzero =>
    split at h
    · cases h
    · split at h
      · cases h
      · next hlength =>
        refine checkText_eq_ok (fun hmem => hzero ?_) hs ?_
        · simp [String.toList_append, hmem]
        · rw [String.utf8ByteSize_append] at hlength
          omega

section Extends

variable {p root : Path} {base loc : Location} {rest : List String} (hroot : root.Direct)
  (h : p.Extends root rest)
include hroot h

/-- A path that goes on from `root` looks up what `root` does, and from where `root` leads locations
along the other names, if it meets no link there. -/
theorem mem_looks_of_extends
    (hlinks : ∀ base, t.LeadsTo true root base → t.Unlinked true base rest) {l : Location}
    (hl : l ∈ t.looks followLast p) :
    l ∈ t.looks true root ∨
      ∃ base q r, t.LeadsTo true root base ∧ rest = q ++ r ∧ l = base ++ q := by
  obtain ⟨steps, hsteps, -, hup, hnames⟩ := h.exists_steps hroot
  obtain ⟨more, hmore⟩ := h.text
  unfold looks at hl ⊢
  cases htext : checkText p.text with
  | error fault =>
    rw [htext] at hl
    cases hl
  | ok _ =>
    rw [htext] at hl
    -- The text of `root` is not refused either, so what it looks up is counted from its steps.
    rw [hmore, String.append_assoc] at htext
    rw [checkText_of_append htext hroot.text]
    dsimp only at hl
    rw [hsteps] at hl
    rcases mem_walkLooks_append hl with hl | ⟨base, fewer, hbase, hl⟩
    · exact .inl hl
    · have hlinks := hlinks base hbase
      rw [← hnames] at hlinks
      obtain ⟨q, r, hqr, hq⟩ := exists_of_mem_walkLooks hup hlinks hl
      exact .inr ⟨base, q, r, hbase, hnames.symm.trans hqr, hq⟩

/-- On its way is the place that `root` leads to. -/
theorem LeadsTo.exists_base (hloc : t.LeadsTo followLast p loc) :
    ∃ base, t.LeadsTo true root base := by
  obtain ⟨steps, hsteps, hne, -, -⟩ := h.exists_steps hroot
  unfold LeadsTo at hloc
  rw [hsteps] at hloc
  obtain ⟨base, hbase, -⟩ := hloc.split hne
  exact ⟨base, hbase⟩

/-- From there it leads straight down along the other names, if it meets no link there. -/
theorem LeadsTo.eq_of_extends (hrest : rest ≠ []) (hbase : t.LeadsTo true root base)
    (hlinks : t.Unlinked true base rest) (hloc : t.LeadsTo followLast p loc) : loc = base ++ rest :=
  LeadsTo.eq_append hroot.text h.text_ne_empty (h.up hroot.up) h.components hbase hloc
    (fun q r hqr hq _ => hlinks q r hqr hq (.inr rfl)) fun hnil => absurd hnil hrest

end Extends

end TableSnapshots.Tree
