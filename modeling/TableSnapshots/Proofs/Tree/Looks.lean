import Mathlib.Data.List.Basic
import TableSnapshots.Proofs.Tree.Listing

/-!
# What is looked at along a path

The locations that are looked up when a path is followed (`Tree.looks`), on the way through links as
well. What is found depends on these alone. Without an entry that is not among them the same is
found, and not in that entry (`resolve_without`, `not_atOrBelow_of_resolve`); without one that is
among them the path leads nowhere (`resolve_without_of_mem`). A path that meets no link looks up the
locations along its names and no others (`exists_of_mem_looks`).
-/

namespace TableSnapshots.Tree

variable {t : Tree} {followLast : Bool}

/-- The locations that are looked up from a directory on, up to the end or to the next link. -/
def advanceLooks (t : Tree) : Location → List Step → List Location
  | _, [] => []
  | dir, .here :: rest => advanceLooks t dir rest
  | dir, .up :: rest => advanceLooks t dir.dropLast rest
  | dir, .name s :: rest =>
    if nameLimit < s.utf8ByteSize then []
    else (dir ++ [s]) :: match t.content? (dir ++ [s]) with
      | some .directory => advanceLooks t (dir ++ [s]) rest
      | _ => []

/-- The locations that are looked up from a directory on, through at most `links` links. -/
def walkLooks (t : Tree) (followLast : Bool) : (links : Nat) → Location → List Step → List Location
  | 0, dir, steps => t.advanceLooks dir steps
  | links + 1, dir, steps =>
    t.advanceLooks dir steps ++ match t.advance followLast dir steps with
      | .ok (.detour dir' target rest) =>
        walkLooks t followLast links (origin dir' target) (Step.ofText target ++ rest)
      | _ => []

/-- The locations that are looked up along a path. -/
def looks (t : Tree) (followLast : Bool) (p : Path) : List Location :=
  match checkText p.text with
  | .error _ => []
  | .ok () => t.walkLooks followLast linkLimit [] (Step.ofText p.text)

/-- Where steps have come to when they halt. -/
def Halt.place : Halt → Location
  | arrived loc => loc
  | detour dir _ _ => dir

/-! ## Without an entry -/

section Without

variable {loc dir : Location} {steps : List Step}

/-- The only entry of a directory outside of a location that is at it or below is that location. -/
theorem eq_of_atOrBelow_concat {s : String} (hdir : atOrBelow loc dir = false)
    (h : atOrBelow loc (dir ++ [s]) = true) : dir ++ [s] = loc := by
  unfold atOrBelow at *
  rw [Bool.eq_false_iff, ne_eq, List.isPrefixOf_iff_prefix] at hdir
  rw [List.isPrefixOf_iff_prefix] at h
  rcases List.prefix_concat_iff.mp h with heq | hle
  · exact heq.symm
  · exact absurd hle hdir

/-- So any other entry of such a directory is outside of the location. -/
theorem not_atOrBelow_concat {s : String} (hdir : atOrBelow loc dir = false)
    (hne : loc ≠ dir ++ [s]) : atOrBelow loc (dir ++ [s]) = false := by
  rw [Bool.eq_false_iff]
  exact fun h => hne (eq_of_atOrBelow_concat hdir h).symm

/-- Above a place outside of a location there are only such places. -/
theorem not_atOrBelow_dropLast (hdir : atOrBelow loc dir = false) :
    atOrBelow loc dir.dropLast = false := by
  unfold atOrBelow at *
  rw [Bool.eq_false_iff, ne_eq, List.isPrefixOf_iff_prefix] at *
  exact fun h => hdir (h.trans (List.dropLast_prefix dir))

/-- A target is looked for from a place outside of a location if the link is outside of it. -/
theorem not_atOrBelow_origin (hloc : loc ≠ []) (hdir : atOrBelow loc dir = false)
    (target : String) : atOrBelow loc (origin dir target) = false := by
  unfold origin
  split
  · exact not_atOrBelow_nil hloc
  · exact hdir

/-- What there is without a location: nothing at it and below, and elsewhere what was there. -/
theorem content?_without (hloc : loc ≠ []) (l : Location) :
    (t.without loc).content? l = if atOrBelow loc l then none else t.content? l := by
  rw [content?, node?_without hloc]
  split <;> rfl

/-- Steps that do not look at a location go on in the same way without it. -/
theorem advance_without (hloc : loc ≠ []) (hdir : atOrBelow loc dir = false)
    (h : loc ∉ t.advanceLooks dir steps) :
    (t.without loc).advance followLast dir steps = t.advance followLast dir steps := by
  induction steps generalizing dir with
  | nil => rfl
  | cons step rest ih =>
    cases step with
    | here => exact ih hdir h
    | up => exact ih (not_atOrBelow_dropLast hdir) h
    | name s =>
      rw [advance_name, advance_name]
      rw [advanceLooks] at h
      split
      · rfl
      · next hlong =>
        rw [if_neg hlong, List.mem_cons, not_or] at h
        obtain ⟨hne, hrest⟩ := h
        have hout := not_atOrBelow_concat hdir hne
        rw [content?_without hloc, hout, if_neg Bool.false_ne_true]
        cases hcontent : t.content? (dir ++ [s]) with
        | none => rfl
        | some content =>
          rw [hcontent] at hrest
          cases content with
          | directory => exact ih hout hrest
          | file bytes => rfl
          | link target => rfl

/-- Where they halt is outside of it. -/
theorem not_atOrBelow_of_advance (hdir : atOrBelow loc dir = false)
    (h : loc ∉ t.advanceLooks dir steps) {halt : Halt}
    (hhalt : t.advance followLast dir steps = .ok halt) : atOrBelow loc halt.place = false := by
  induction steps generalizing dir with
  | nil =>
    cases hhalt
    exact hdir
  | cons step rest ih =>
    cases step with
    | here => exact ih hdir h hhalt
    | up => exact ih (not_atOrBelow_dropLast hdir) h hhalt
    | name s =>
      rw [advance_name] at hhalt
      rw [advanceLooks] at h
      split at hhalt
      · cases hhalt
      · next hlong =>
        rw [if_neg hlong, List.mem_cons, not_or] at h
        obtain ⟨hne, hrest⟩ := h
        have hout := not_atOrBelow_concat hdir hne
        split at hhalt
        · cases hhalt
        · next hdirectory =>
          rw [hdirectory] at hrest
          exact ih hout hrest hhalt
        · split at hhalt
          · cases hhalt
            exact hout
          · cases hhalt
        · split at hhalt
          · cases hhalt
            exact hout
          · cases hhalt
            exact hdir

/-- Steps that look at a location lead nowhere without it. -/
theorem advance_without_of_mem (hloc : loc ≠ []) (hdir : atOrBelow loc dir = false)
    (h : loc ∈ t.advanceLooks dir steps) :
    (t.without loc).advance followLast dir steps = .error .missing := by
  induction steps generalizing dir with
  | nil => cases h
  | cons step rest ih =>
    cases step with
    | here => exact ih hdir h
    | up => exact ih (not_atOrBelow_dropLast hdir) h
    | name s =>
      rw [advance_name, content?_without hloc]
      rw [advanceLooks] at h
      split
      · next hlong =>
        rw [if_pos hlong] at h
        cases h
      · next hlong =>
        rw [if_neg hlong] at h
        cases hin : atOrBelow loc (dir ++ [s]) with
        | true => rfl
        | false =>
          -- This is not yet the location, so the steps go on through a directory.
          have hne : loc ≠ dir ++ [s] := by
            rintro rfl
            have hself : atOrBelow (dir ++ [s]) (dir ++ [s]) = true :=
              List.isPrefixOf_iff_prefix.mpr List.prefix_rfl
            rw [hself] at hin
            cases hin
          have hrest := (List.mem_cons.mp h).resolve_left hne
          rw [if_neg Bool.false_ne_true]
          cases hcontent : t.content? (dir ++ [s]) with
          | none => rfl
          | some content =>
            rw [hcontent] at hrest
            cases content with
            | directory => exact ih hin hrest
            | file bytes => cases hrest
            | link target => cases hrest

/-- What is found through links is the same without a location that is not looked at. -/
theorem walk_without (hloc : loc ≠ []) {links : Nat} (hdir : atOrBelow loc dir = false)
    (h : loc ∉ t.walkLooks followLast links dir steps) :
    (t.without loc).walk followLast links dir steps = t.walk followLast links dir steps := by
  induction links generalizing dir steps with
  | zero => rw [walk, walk, advance_without hloc hdir h]
  | succ links ih =>
    rw [walkLooks, List.mem_append, not_or] at h
    obtain ⟨hfirst, hrest⟩ := h
    rw [walk, walk, advance_without hloc hdir hfirst]
    cases hadvance : t.advance followLast dir steps with
    | error fault => rfl
    | ok halt =>
      cases halt with
      | arrived l => rfl
      | detour dir' target rest =>
        rw [hadvance] at hrest
        have hdir' := not_atOrBelow_of_advance hdir hfirst hadvance
        exact ih (not_atOrBelow_origin hloc hdir' target) hrest

/-- And it is outside of that location. -/
theorem not_atOrBelow_of_walk (hloc : loc ≠ []) {links : Nat} (hdir : atOrBelow loc dir = false)
    (h : loc ∉ t.walkLooks followLast links dir steps) {l : Location}
    (hl : t.walk followLast links dir steps = .ok l) : atOrBelow loc l = false := by
  induction links generalizing dir steps with
  | zero =>
    rcases of_walk_eq_ok hl with harrived | ⟨_, _, _, _, hlinks, -⟩
    · exact not_atOrBelow_of_advance hdir h harrived
    · cases hlinks
  | succ links ih =>
    rw [walkLooks, List.mem_append, not_or] at h
    obtain ⟨hfirst, hrest⟩ := h
    rcases of_walk_eq_ok hl with harrived | ⟨_, dir', target, rest, hlinks, hdetour, hnext⟩
    · exact not_atOrBelow_of_advance hdir hfirst harrived
    · cases hlinks
      rw [hdetour] at hrest
      have hdir' := not_atOrBelow_of_advance hdir hfirst hdetour
      exact ih (not_atOrBelow_origin hloc hdir' target) hrest hnext

/-- Nothing is found through links without a location that is looked at. -/
theorem walk_without_of_mem (hloc : loc ≠ []) {links : Nat} (hdir : atOrBelow loc dir = false)
    (h : loc ∈ t.walkLooks followLast links dir steps) :
    (t.without loc).walk followLast links dir steps = .error .missing := by
  induction links generalizing dir steps with
  | zero => exact walk_of_error (advance_without_of_mem hloc hdir h)
  | succ links ih =>
    by_cases hfirst : loc ∈ t.advanceLooks dir steps
    · exact walk_of_error (advance_without_of_mem hloc hdir hfirst)
    · rw [walkLooks, List.mem_append] at h
      have hrest := h.resolve_left hfirst
      rw [walk, advance_without hloc hdir hfirst]
      cases hadvance : t.advance followLast dir steps with
      | error fault =>
        rw [hadvance] at hrest
        cases hrest
      | ok halt =>
        rw [hadvance] at hrest
        cases halt with
        | arrived l => cases hrest
        | detour dir' target rest =>
          have hdir' := not_atOrBelow_of_advance hdir hfirst hadvance
          exact ih (not_atOrBelow_origin hloc hdir' target) hrest

variable {p : Path}

/-- A path that does not look at a location leads to the same place without it. -/
theorem resolve_without (hloc : loc ≠ []) (h : loc ∉ t.looks followLast p) :
    (t.without loc).resolve followLast p = t.resolve followLast p := by
  unfold looks at h
  cases htext : checkText p.text with
  | error fault => rw [resolve_of_refused htext, resolve_of_refused htext]
  | ok _ =>
    rw [htext] at h
    rw [resolve_eq_walk htext, resolve_eq_walk htext]
    exact walk_without hloc (not_atOrBelow_nil hloc) h

/-- That place is outside of the location. -/
theorem not_atOrBelow_of_resolve (hloc : loc ≠ []) (h : loc ∉ t.looks followLast p) {l : Location}
    (hl : t.resolve followLast p = .ok l) : atOrBelow loc l = false := by
  unfold looks at h
  cases htext : checkText p.text with
  | error fault =>
    rw [resolve_of_refused htext] at hl
    cases hl
  | ok _ =>
    rw [htext] at h
    rw [resolve_eq_walk htext] at hl
    exact not_atOrBelow_of_walk hloc (not_atOrBelow_nil hloc) h hl

/-- A path that looks at a location leads nowhere without it. -/
theorem resolve_without_of_mem (hloc : loc ≠ []) (h : loc ∈ t.looks followLast p) :
    (t.without loc).resolve followLast p = .error .missing := by
  unfold looks at h
  cases htext : checkText p.text with
  | error fault =>
    rw [htext] at h
    cases h
  | ok _ =>
    rw [htext] at h
    rw [resolve_eq_walk htext]
    exact walk_without_of_mem hloc (not_atOrBelow_nil hloc) h

/-! ## Reading -/

/-- The file that a path leads to is the same without a location that is not looked at. -/
theorem readFile_without (hloc : loc ≠ []) (h : loc ∉ t.looks true p) :
    (t.without loc).readFile p = t.readFile p := by
  unfold readFile
  rw [resolve_without hloc h]
  cases hl : t.resolve true p with
  | error fault => rfl
  | ok l =>
    dsimp only [bind, Except.bind]
    rw [content?_without hloc, not_atOrBelow_of_resolve hloc h hl, if_neg Bool.false_ne_true]

/-- It is missing without one that is. -/
theorem readFile_without_of_mem (hloc : loc ≠ []) (h : loc ∈ t.looks true p) :
    (t.without loc).readFile p = .error .missing := by
  unfold readFile
  rw [resolve_without_of_mem hloc h]
  rfl

/-- Outside of a location a directory has the same entries without it, but for the location
itself. -/
theorem children_without {l : Location} (hl : atOrBelow loc l = false) :
    (t.without loc).children l = (t.children l).filter fun e => l ++ [e.1] ≠ loc := by
  unfold children without
  rw [List.filterMap_filter, List.filter_filterMap]
  refine List.filterMap_congr fun e _ => ?_
  dsimp only
  cases hname : childName? l e.1 with
  | none => simp
  | some s =>
    have he := childName?_eq_some_iff.mp hname
    have hiff : atOrBelow loc e.1 = true ↔ l ++ [s] = loc := by
      rw [he]
      refine ⟨eq_of_atOrBelow_concat hl, fun heq => ?_⟩
      rw [heq]
      exact List.isPrefixOf_iff_prefix.mpr List.prefix_rfl
    by_cases heq : l ++ [s] = loc
    · simp [hiff.mpr heq, heq, Option.filter_some]
    · simp [Bool.eq_false_iff.mpr (mt hiff.mp heq), heq, Option.filter_some]

/-- Without a location that is not looked at, a directory is listed as before, but for the location
itself. -/
theorem listDirectory_without (hloc : loc ≠ []) (h : loc ∉ t.looks true p) {l : Location}
    (hl : t.resolve true p = .ok l) :
    (t.without loc).listDirectory p
      = (t.listDirectory p).map fun es => es.filter fun e => l ++ [e.name] ≠ loc := by
  have hout := not_atOrBelow_of_resolve hloc h hl
  unfold listDirectory
  rw [resolve_without hloc h, hl]
  dsimp only [bind, Except.bind]
  rw [content?_without hloc, hout, if_neg Bool.false_ne_true]
  cases t.content? l with
  | none => rfl
  | some content =>
    cases content with
    | directory =>
      dsimp only
      rw [children_without hout]
      refine congrArg Except.ok ?_
      dsimp only
      rw [List.filter_map]
      rfl
    | file bytes => rfl
    | link target => rfl

end Without

/-! ## Along names -/

/-- Steps that do not lead up look up locations along their names only. -/
theorem exists_of_mem_advanceLooks {dir l : Location} {steps : List Step} (hup : .up ∉ steps)
    (h : l ∈ t.advanceLooks dir steps) :
    ∃ q r, steps.filterMap Step.name? = q ++ r ∧ l = dir ++ q := by
  induction steps generalizing dir with
  | nil => cases h
  | cons step rest ih =>
    have hup' : .up ∉ rest := fun hmem => hup (List.mem_cons_of_mem step hmem)
    cases step with
    | here => exact ih hup' h
    | up => exact absurd List.mem_cons_self hup
    | name s =>
      rw [List.filterMap_cons_some (show (Step.name s).name? = some s from rfl)]
      rw [advanceLooks] at h
      split at h
      · cases h
      · rcases List.mem_cons.mp h with rfl | h
        · exact ⟨[s], _, rfl, rfl⟩
        · split at h
          · obtain ⟨q, r, hnames, rfl⟩ := ih hup' h
            exact ⟨s :: q, r, by rw [hnames]; rfl, by simp⟩
          · cases h

/-- They come to a link only if there is one along their names. -/
theorem exists_of_detour {dir dir' : Location} {steps rest : List Step} {target : String}
    (hup : .up ∉ steps) (h : t.advance followLast dir steps = .ok (.detour dir' target rest)) :
    ∃ q r, steps.filterMap Step.name? = q ++ r ∧ q ≠ [] ∧
      t.content? (dir ++ q) = some (.link target) := by
  induction steps generalizing dir with
  | nil => cases h
  | cons step steps ih =>
    have hup' : .up ∉ steps := fun hmem => hup (List.mem_cons_of_mem step hmem)
    cases step with
    | here => exact ih hup' h
    | up => exact absurd List.mem_cons_self hup
    | name s =>
      rw [List.filterMap_cons_some (show (Step.name s).name? = some s from rfl)]
      rw [advance_name] at h
      split at h
      · cases h
      · split at h
        · cases h
        · obtain ⟨q, r, hnames, -, hlink⟩ := ih hup' h
          exact ⟨s :: q, r, by rw [hnames]; rfl, List.cons_ne_nil s q, by simpa using hlink⟩
        · split at h <;> cases h
        · next hlink =>
          split at h
          · cases h
          · cases h
            exact ⟨[s], _, rfl, List.cons_ne_nil s [], hlink⟩

/-- Where there is no link along their names, nothing is looked up after their first halt. -/
theorem exists_of_mem_walkLooks {links : Nat} {base l : Location} {steps : List Step}
    (hup : .up ∉ steps) (hlinks : t.Unlinked true base (steps.filterMap Step.name?))
    (h : l ∈ t.walkLooks followLast links base steps) :
    ∃ q r, steps.filterMap Step.name? = q ++ r ∧ l = base ++ q := by
  have hfirst : l ∈ t.advanceLooks base steps := by
    cases links with
    | zero => exact h
    | succ links =>
      rw [walkLooks, List.mem_append] at h
      refine h.resolve_right fun hrest => ?_
      split at hrest
      · next hdetour =>
        obtain ⟨q, r, hnames, hq, hlink⟩ := exists_of_detour hup hdetour
        exact hlinks q r hnames hq (.inr rfl) _ hlink
      · cases hrest
  exact exists_of_mem_advanceLooks hup hfirst

/-- A path that never leads up and meets no link looks up locations along its names only. -/
theorem prefix_of_mem_looks {p : Path} (hup : .up ∉ p.components)
    (hlinks : t.Unlinked true [] p.names) {l : Location} (h : l ∈ t.looks followLast p) :
    l <+: p.names := by
  unfold looks at h
  split at h
  · cases h
  · rw [← Step.filterMap_name?_ofText] at hlinks ⊢
    obtain ⟨q, r, hnames, hq⟩ := exists_of_mem_walkLooks (mt Step.up_mem_ofText hup) hlinks h
    rw [hq, hnames]
    exact List.prefix_append q r

/-- Such a path leads to the location of its names, if it leads anywhere. -/
theorem eq_names_of_resolve {p : Path} (hp : p.text ≠ "") (hup : .up ∉ p.components)
    (hlinks : t.Unlinked true [] p.names) {l : Location} (h : t.resolve followLast p = .ok l) :
    l = p.names := by
  have hleads := (leadsTo_of_resolve h).names hp hup
  have hstraight := hleads.straight fun q r hqr hq _ target => hlinks q r hqr hq (.inr rfl) target
  rwa [List.nil_append] at hstraight

end TableSnapshots.Tree
