import Mathlib.Data.List.Nodup
import Mathlib.Data.List.Pairwise
import Mathlib.Data.List.Perm.Basic
import TableSnapshots.Json.Layout
import TableSnapshots.Proofs.Json.Natural

/-!
# Reading records of a known layout

What a layout reads does not depend on the order of a record's fields (`collectMembers_perm`), and
a list of its first fields is read as a record of them (`read_of_gives`). This rests on what one
field does: it sets its own value and nothing else, so two different fields may be taken in either
order (`Field.Apart`). A record that begins well fails at the first field that the layout does not
have or that was there before (`read_of_strays`), and so does a record or a list at the first value
that its field refuses (`read_of_goesOn`), whatever comes after it. One such value is a number that
is out of range (`read_of_outOfRange`).
-/

namespace TableSnapshots.Json

variable {σ α β γ : Type}

/-! ## One field -/

/-- A field whose value is read and then set. -/
def Field.setting (name : String) (present : σ → Bool) (optional : Bool)
    (read : Draft → Except ReadError β) (set : β → σ → σ) : Field σ where
  name := name
  present := present
  take := fun d s => do return set (← read d) s
  optional := optional

/-- A field that was taken is there. -/
def Field.Marks (f : Field σ) : Prop :=
  ∀ d s s', f.take d s = .ok s' → f.present s' = true

/-- Two fields do not touch each other. -/
structure Field.Apart (f g : Field σ) : Prop where
  /-- Taking the first one leaves the second one as it is. -/
  keeps : ∀ {d s s'}, f.take d s = .ok s' → g.present s' = g.present s
  /-- Taking the second one leaves the first one as it is. -/
  keeps' : ∀ {d s s'}, g.take d s = .ok s' → f.present s' = f.present s
  /-- They can be taken in the other order. -/
  swap : ∀ {d e s s₁ s₂}, f.take d s = .ok s₁ → g.take e s₁ = .ok s₂ →
    ∃ s₁', g.take e s = .ok s₁' ∧ f.take d s₁' = .ok s₂
  /-- And from the other order in this one. -/
  swap' : ∀ {d e s s₁ s₂}, g.take d s = .ok s₁ → f.take e s₁ = .ok s₂ →
    ∃ s₁', f.take e s = .ok s₁' ∧ g.take d s₁' = .ok s₂

/-- Nor do they in the other order. -/
instance : Std.Symm (Field.Apart (σ := σ)) :=
  ⟨fun _ _ h => ⟨h.keeps', h.keeps, h.swap', h.swap⟩⟩

section Setting

variable {name name' : String} {present present' : σ → Bool} {optional optional' : Bool}
  {read : Draft → Except ReadError β} {read' : Draft → Except ReadError γ} {set : β → σ → σ}
  {set' : γ → σ → σ}

/-- A value is taken if it is read, and then it is set. -/
theorem Field.take_setting_eq_ok_iff {d : Draft} {s s' : σ} :
    (setting name present optional read set).take d s = .ok s'
      ↔ ∃ b, read d = .ok b ∧ set b s = s' := by
  change (read d >>= fun b => pure (set b s)) = .ok s' ↔ _
  cases read d with
  | error e => exact ⟨nofun, nofun⟩
  | ok b =>
    constructor
    · intro h
      exact ⟨b, rfl, Except.ok.inj h⟩
    · rintro ⟨b', hb, rfl⟩
      cases hb
      rfl

/-- A value that is refused is not taken. -/
theorem Field.take_setting_of_error {d : Draft} {e : ReadError} (h : read d = .error e) (s : σ) :
    (setting name present optional read set).take d s = .error e := by
  change (read d >>= fun b => pure (set b s)) = _
  rw [h]
  rfl

/-- What is set is there. -/
theorem Field.marks_setting (h : ∀ b s, present (set b s) = true) :
    (setting name present optional read set).Marks := by
  intro _ s _ htake
  obtain ⟨b, -, rfl⟩ := take_setting_eq_ok_iff.mp htake
  exact h b s

/-- Fields that set different things do not touch each other. -/
theorem Field.apart_setting (hpresent' : ∀ b s, present' (set b s) = present' s)
    (hpresent : ∀ c s, present (set' c s) = present s)
    (hset : ∀ b c s, set' c (set b s) = set b (set' c s)) :
    (setting name present optional read set).Apart
      (setting name' present' optional' read' set') where
  keeps h := by
    obtain ⟨b, -, rfl⟩ := take_setting_eq_ok_iff.mp h
    exact hpresent' b _
  keeps' h := by
    obtain ⟨c, -, rfl⟩ := take_setting_eq_ok_iff.mp h
    exact hpresent c _
  swap h h' := by
    obtain ⟨b, hb, rfl⟩ := take_setting_eq_ok_iff.mp h
    obtain ⟨c, hc, rfl⟩ := take_setting_eq_ok_iff.mp h'
    exact ⟨_, take_setting_eq_ok_iff.mpr ⟨c, hc, rfl⟩,
      take_setting_eq_ok_iff.mpr ⟨b, hb, (hset b c _).symm⟩⟩
  swap' h h' := by
    obtain ⟨c, hc, rfl⟩ := take_setting_eq_ok_iff.mp h
    obtain ⟨b, hb, rfl⟩ := take_setting_eq_ok_iff.mp h'
    exact ⟨_, take_setting_eq_ok_iff.mpr ⟨b, hb, rfl⟩,
      take_setting_eq_ok_iff.mpr ⟨c, hc, hset b c _⟩⟩

end Setting

/-! ## Regular layouts -/

namespace Layout

/-- A layout that refuses other fields, and whose own fields do not touch each other. -/
structure Regular (l : Layout σ α) : Prop where
  /-- Other fields are refused. -/
  strict : l.strict = true
  /-- No two fields have one name. -/
  nodup : l.names.Nodup
  /-- At first no field is there. -/
  fresh : ∀ f ∈ l.fields, f.present l.empty = false
  /-- Then those are that were taken. -/
  marks : ∀ f ∈ l.fields, f.Marks
  /-- No field touches another one. -/
  apart : l.fields.Pairwise Field.Apart

variable {l : Layout σ α}

/-- Any two fields of different names do not touch each other. -/
theorem Regular.apart_of_ne (hl : l.Regular) {f g : Field σ} (hf : f ∈ l.fields)
    (hg : g ∈ l.fields) (hne : f.name ≠ g.name) : f.Apart g :=
  hl.apart.forall hf hg fun heq => hne (congrArg Field.name heq)

/-- The field of a name is the one that has it. -/
theorem Regular.find?_name (hl : l.Regular) {f : Field σ} (hf : f ∈ l.fields) :
    l.fields.find? (·.name = f.name) = some f := by
  cases hfind : l.fields.find? (·.name = f.name) with
  | none =>
    have hnot := List.find?_eq_none.mp hfind f hf
    simp at hnot
  | some g =>
    have hname : g.name = f.name := by simpa using List.find?_some hfind
    have hsame : g = f :=
      List.inj_on_of_nodup_map hl.nodup (List.mem_of_find?_eq_some hfind) hf hname
    rw [hsame]

/-! ## Records -/

/-- Fields with their names, as the draft of a record has them. -/
def named (ms : List (String × Draft)) : List (Option String × Draft) :=
  ms.map fun m => (some m.1, m.2)

/-- Some fields are collected, and then others. -/
theorem collectMembers_append (l : Layout σ α) (ms ms' : List (Option String × Draft)) (s : σ) :
    l.collectMembers (ms ++ ms') s = l.collectMembers ms s >>= l.collectMembers ms' := by
  induction ms generalizing s with
  | nil => rfl
  | cons m ms ih =>
    obtain ⟨k, d⟩ := m
    cases k with
    | none => rfl
    | some k =>
      rw [List.cons_append, collectMembers, collectMembers]
      split
      · split
        · rfl
        · cases d.skip with
          | error e => rfl
          | ok _ => exact ih s
      · next f _ =>
        split
        · rfl
        · cases f.take d s with
          | error e => rfl
          | ok s' => exact ih s'

/-- A field that is not there yet is taken, and then the others are collected. -/
theorem Regular.collectMembers_cons (hl : l.Regular) {f : Field σ} (hf : f ∈ l.fields) {s : σ}
    (hpresent : f.present s = false) (d : Draft) (ms : List (Option String × Draft)) :
    l.collectMembers ((some f.name, d) :: ms) s = f.take d s >>= l.collectMembers ms := by
  rw [collectMembers, hl.find?_name hf]
  dsimp only
  rw [hpresent, if_neg Bool.false_ne_true]

/-- Fields are collected exactly if the first one is one of the layout, was not there, and is taken,
and then the others are collected. -/
theorem Regular.collect_cons_eq_ok_iff (hl : l.Regular) {k : String} {d : Draft}
    {ms : List (Option String × Draft)} {s s' : σ} :
    l.collectMembers ((some k, d) :: ms) s = .ok s'
      ↔ ∃ f ∈ l.fields, f.name = k ∧ f.present s = false ∧
          ∃ s₁, f.take d s = .ok s₁ ∧ l.collectMembers ms s₁ = .ok s' := by
  constructor
  · intro h
    rw [collectMembers] at h
    cases hfind : l.fields.find? (·.name = k) with
    | none =>
      rw [hfind, hl.strict] at h
      cases h
    | some f =>
      rw [hfind] at h
      have hf := List.mem_of_find?_eq_some hfind
      have hname : f.name = k := by simpa using List.find?_some hfind
      dsimp only at h
      cases hpresent : f.present s with
      | true =>
        rw [hpresent] at h
        cases h
      | false =>
        rw [hpresent, if_neg Bool.false_ne_true] at h
        cases htake : f.take d s with
        | error e =>
          rw [htake] at h
          cases h
        | ok s₁ =>
          rw [htake] at h
          exact ⟨f, hf, hname, hpresent, s₁, htake, h⟩
  · rintro ⟨f, hf, rfl, hpresent, s₁, htake, h⟩
    rw [hl.collectMembers_cons hf hpresent, htake]
    exact h

/-- The order of the fields makes no difference. -/
theorem Regular.collectMembers_perm (hl : l.Regular) {ms ms' : List (String × Draft)}
    (hms : ms.Perm ms') {s s' : σ} (h : l.collectMembers (named ms) s = .ok s') :
    l.collectMembers (named ms') s = .ok s' := by
  induction hms generalizing s with
  | nil => exact h
  | cons m _ ih =>
    obtain ⟨f, hf, hname, hpresent, s₁, htake, hrest⟩ := hl.collect_cons_eq_ok_iff.mp h
    exact hl.collect_cons_eq_ok_iff.mpr ⟨f, hf, hname, hpresent, s₁, htake, ih hrest⟩
  | swap m m' ms =>
    obtain ⟨f, hf, hname, hpresent, s₁, htake, hrest⟩ := hl.collect_cons_eq_ok_iff.mp h
    obtain ⟨g, hg, hname', hpresent', s₂, htake', hrest⟩ := hl.collect_cons_eq_ok_iff.mp hrest
    -- The second field was not there after the first one, so it is another one.
    have hne : f.name ≠ g.name := by
      intro heq
      obtain rfl : f = g := List.inj_on_of_nodup_map hl.nodup hf hg heq
      rw [hl.marks f hf _ _ _ htake] at hpresent'
      cases hpresent'
    have hapart := hl.apart_of_ne hf hg hne
    obtain ⟨s₁', hfirst, hsecond⟩ := hapart.swap htake htake'
    rw [hapart.keeps htake] at hpresent'
    refine hl.collect_cons_eq_ok_iff.mpr ⟨g, hg, hname', hpresent', s₁', hfirst, ?_⟩
    refine hl.collect_cons_eq_ok_iff.mpr ⟨f, hf, hname, ?_, s₂, hsecond, hrest⟩
    rw [hapart.keeps' hfirst, hpresent]
  | trans _ _ ih ih' => exact ih' (ih h)

/-- After fields were collected those are there that were before or are among them. -/
theorem Regular.present_of_collect (hl : l.Regular) {ms : List (String × Draft)} {s s' : σ}
    (h : l.collectMembers (named ms) s = .ok s') {f : Field σ} (hf : f ∈ l.fields) :
    f.present s' = true ↔ f.present s = true ∨ f.name ∈ ms.map (·.1) := by
  induction ms generalizing s with
  | nil =>
    cases h
    simp
  | cons m ms ih =>
    obtain ⟨g, hg, hname, -, s₁, htake, hrest⟩ := hl.collect_cons_eq_ok_iff.mp h
    rw [ih hrest, List.map_cons, List.mem_cons, ← hname]
    by_cases hsame : f.name = g.name
    · obtain rfl : f = g := List.inj_on_of_nodup_map hl.nodup hf hg hsame
      simp [hl.marks f hf _ _ _ htake]
    · rw [(hl.apart_of_ne hg hf (Ne.symm hsame)).keeps htake]
      simp [hsame]

/-- Fields that can be collected are fields of the layout. -/
theorem Regular.mem_names_of_collect (hl : l.Regular) {ms : List (String × Draft)} {s s' : σ}
    (h : l.collectMembers (named ms) s = .ok s') {k : String} (hk : k ∈ ms.map (·.1)) :
    k ∈ l.names := by
  induction ms generalizing s with
  | nil => cases hk
  | cons m ms ih =>
    obtain ⟨f, hf, hname, -, s₁, -, hrest⟩ := hl.collect_cons_eq_ok_iff.mp h
    rw [List.map_cons, List.mem_cons] at hk
    rcases hk with rfl | hk
    · exact hname ▸ (List.mem_map_of_mem hf : f.name ∈ l.names)
    · exact ih hrest hk

/-- Fields that can be collected begin with fields that can be. -/
theorem exists_of_append {ms ms' : List (String × Draft)} {s s' : σ}
    (h : l.collectMembers (named (ms ++ ms')) s = .ok s') :
    ∃ s₁, l.collectMembers (named ms) s = .ok s₁ := by
  rw [named, List.map_append, collectMembers_append] at h
  cases hfirst : l.collectMembers (named ms) s with
  | error e =>
    rw [show List.map (fun m => (some m.1, m.2)) ms = named ms from rfl, hfirst] at h
    cases h
  | ok s₁ => exact ⟨s₁, rfl⟩

/-! ## Lists -/

/-- The first items of a list are collected as the fields of these names, and then the others. -/
theorem Regular.collectItems_append (hl : l.Regular) (stop : Option Break)
    (ms : List (String × Draft)) (ds : List Draft) {fs before : List (Field σ)}
    (hfields : l.fields = before ++ fs) (hnames : ms.map (·.1) <+: fs.map (·.name))
    (index : Nat) {s : σ} (hnew : ∀ f ∈ fs, f.present s = false) :
    l.collectItems stop index fs (ms.map (·.2) ++ ds) s
      = l.collectMembers (named ms) s >>=
          l.collectItems stop (index + ms.length) (fs.drop ms.length) ds := by
  induction ms generalizing fs before index s with
  | nil => rfl
  | cons m ms ih =>
    cases fs with
    | nil =>
      -- There is no field for the item, so it cannot have its name.
      have hnil := List.prefix_nil.mp hnames
      cases hnil
    | cons f fs =>
      obtain ⟨hfirst, hnames⟩ := List.cons_prefix_cons.mp hnames
      have hname : m.1 = f.name := hfirst
      have hf : f ∈ l.fields := by rw [hfields]; simp
      have hcollect : l.collectMembers (named (m :: ms)) s
          = f.take m.2 s >>= l.collectMembers (named ms) := by
        change l.collectMembers ((some m.1, m.2) :: named ms) s = _
        rw [hname, hl.collectMembers_cons hf (hnew f List.mem_cons_self)]
      rw [hcollect, List.map_cons, List.cons_append, collectItems]
      cases htake : f.take m.2 s with
      | error e => rfl
      | ok s₁ =>
        -- The field that was taken is none of those that are left.
        have hnodup : (f :: fs).Pairwise fun a b => a.name ≠ b.name :=
          (List.pairwise_append.mp (hfields ▸ List.pairwise_map.mp hl.nodup)).2.1
        have hleft : ∀ g ∈ fs, g.present s₁ = false := by
          intro g hg
          have hg' : g ∈ l.fields := by rw [hfields]; simp [hg]
          rw [(hl.apart_of_ne hf hg' (List.rel_of_pairwise_cons hnodup hg)).keeps htake]
          exact hnew g (List.mem_cons_of_mem f hg)
        have hfields' : l.fields = (before ++ [f]) ++ fs := by rw [hfields, List.append_assoc]; rfl
        have hrest := ih hfields' hnames (index + 1) hleft
        rw [show index + (m :: ms).length = index + 1 + ms.length by
          simp only [List.length_cons]; omega]
        exact hrest

/-- After the first fields of the layout those of the other names are left. -/
theorem names_drop {ms : List (String × Draft)} {rest : List String}
    (h : ms.map (·.1) ++ rest = l.names) : (l.fields.drop ms.length).map (·.name) = rest := by
  rw [List.map_drop, show l.fields.map (·.name) = l.names from rfl, ← h]
  exact List.drop_left' (List.length_map _)

/-- A list that stops where all fields that are left may be missing leaves out nothing. -/
theorem collectItems_nil {fs : List (Field σ)} (h : ∀ f ∈ fs, f.optional = true) (index : Nat)
    (s : σ) : l.collectItems none index fs [] s = .ok s := by
  induction fs generalizing index with
  | nil => rfl
  | cons f fs ih =>
    rw [collectItems, if_pos (h f List.mem_cons_self)]
    exact ih (fun g hg => h g (List.mem_cons_of_mem f hg)) (index + 1)

/-! ## Fields that may be given -/

/-- A field, if there is a value for it. -/
def given (name : String) (v : Option Draft) : List (String × Draft) :=
  v.toList.map (name, ·)

/-- It is collected as its value is taken, or else nothing happens. -/
theorem Regular.collect_given (hl : l.Regular) (f : Field σ) (hf : f ∈ l.fields) {s s' : σ}
    (hpresent : f.present s = false) {v : Option Draft}
    (h : v.elim (s = s') fun d => f.take d s = .ok s') (ms : List (String × Draft)) :
    l.collectMembers (named (given f.name v ++ ms)) s = l.collectMembers (named ms) s' := by
  cases v with
  | none => exact h ▸ rfl
  | some d =>
    change l.collectMembers ((some f.name, d) :: named ms) s = _
    rw [hl.collectMembers_cons hf hpresent, show f.take d s = .ok s' from h]
    rfl

/-! ## Values that are written -/

/-- The drafts of some fields: a record of them in any order, or a list if they are the first ones
of the layout. -/
inductive Gives (l : Layout σ α) (fields : List (String × Draft)) : Draft → Prop
  | record {ms : List (String × Draft)} (perm : ms.Perm fields) :
    Gives l fields (.record (named ms) none)
  | list (first : fields.map (·.1) <+: l.names) : Gives l fields (.list (fields.map (·.2)) none)

/-- Every field that has to be there is among some fields. -/
def Suffice (l : Layout σ α) (fields : List (String × Draft)) : Prop :=
  ∀ f ∈ l.fields, f.optional = false → f.name ∈ fields.map (·.1)

/-- No field has to be there if all may be missing. -/
theorem suffice_of_optional (h : ∀ f ∈ l.fields, f.optional = true)
    (fields : List (String × Draft)) : l.Suffice fields := by
  intro f hf hrequired
  rw [h f hf] at hrequired
  cases hrequired

/-- Fields are read from each of their drafts as if they were collected in their order. -/
theorem Regular.read_of_gives (hl : l.Regular) {fields : List (String × Draft)} {d : Draft}
    (hsuffice : l.Suffice fields) (h : l.Gives fields d) {s : σ}
    (hs : l.collectMembers (named fields) l.empty = .ok s) : l.read d = l.build s := by
  cases h with
  | record perm =>
    have hcollect := hl.collectMembers_perm perm.symm hs
    unfold read
    dsimp only
    rw [hcollect]
    rfl
  | list first =>
    -- The items are collected as the fields, and then nothing is left but fields with defaults.
    have hitems := hl.collectItems_append none fields [] (List.nil_append _).symm first 0 hl.fresh
    have hleft : ∀ f ∈ l.fields.drop fields.length, f.optional = true := by
      intro f hf
      by_contra hrequired
      have hmem := hsuffice f (List.mem_of_mem_drop hf) (by simpa using hrequired)
      -- The name would be both among the first ones and among the others.
      obtain ⟨rest, hrest⟩ := first
      have hrest' : f.name ∈ rest := names_drop hrest ▸ List.mem_map_of_mem hf
      exact List.disjoint_of_nodup_append (hrest ▸ hl.nodup) hmem hrest'
    rw [List.append_nil, hs] at hitems
    unfold read
    dsimp only
    rw [hitems]
    change (l.collectItems none _ _ [] s >>= l.build) = _
    rw [collectItems_nil hleft]
    rfl

/-! ## Values that are refused -/

/-- A record that begins with some fields is refused if the others are. -/
theorem read_of_error {before : List (String × Draft)} {s : σ}
    (hs : l.collectMembers (named before) l.empty = .ok s) {after : List (Option String × Draft)}
    {e : ReadError} (h : l.collectMembers after s = .error e) (stop : Option Break) :
    l.read (.record (named before ++ after) stop) = .error e := by
  have hcollect : l.collectMembers (named before ++ after) l.empty = .error e := by
    rw [collectMembers_append, hs]
    exact h
  unfold read
  dsimp only
  rw [hcollect]
  rfl

/-- A record that goes on with a name that is no field's is refused. -/
theorem Regular.read_of_unknown (hl : l.Regular) {before : List (String × Draft)} {s : σ}
    (hs : l.collectMembers (named before) l.empty = .ok s) {k : String} (hk : k ∉ l.names)
    (v : Draft) (after : List (Option String × Draft)) (stop : Option Break) :
    l.read (.record (named before ++ (some k, v) :: after) stop)
      = .error (.mismatch (.unknownField k l.names)) := by
  have hfind : l.fields.find? (·.name = k) = none := by
    rw [List.find?_eq_none]
    intro f hf hname
    have heq : f.name = k := by simpa using hname
    exact hk (heq ▸ List.mem_map_of_mem hf)
  refine read_of_error hs ?_ stop
  rw [collectMembers, hfind, hl.strict]
  rfl

/-- A record that goes on with a field that was there is refused. -/
theorem Regular.read_of_repeated (hl : l.Regular) {before : List (String × Draft)} {s : σ}
    (hs : l.collectMembers (named before) l.empty = .ok s) {k : String}
    (hk : k ∈ before.map (·.1)) (v : Draft) (after : List (Option String × Draft))
    (stop : Option Break) :
    l.read (.record (named before ++ (some k, v) :: after) stop)
      = .error (.mismatch (.duplicateField k)) := by
  obtain ⟨f, hf, rfl⟩ := List.mem_map.mp (hl.mem_names_of_collect hs hk)
  have hpresent : f.present s = true := (hl.present_of_collect hs hf).mpr (.inr hk)
  refine read_of_error hs ?_ stop
  rw [collectMembers, hl.find?_name hf]
  dsimp only
  rw [if_pos hpresent]

/-- Some of the fields of a whole record, in any order. -/
def Begins (Whole : List (String × Draft) → Prop) (before : List (String × Draft)) : Prop :=
  ∃ fields after, Whole fields ∧ (before ++ after).Perm fields

/-- The fields of every whole record can be collected. -/
def Collects (l : Layout σ α) (Whole : List (String × Draft) → Prop) : Prop :=
  ∀ fields, Whole fields → ∃ s, l.collectMembers (named fields) l.empty = .ok s

/-- So can some of them, in any order. -/
theorem Regular.exists_collect_of_begins (hl : l.Regular) {Whole : List (String × Draft) → Prop}
    (hwhole : l.Collects Whole) {before : List (String × Draft)} (h : Begins Whole before) :
    ∃ s, l.collectMembers (named before) l.empty = .ok s := by
  obtain ⟨fields, after, hfields, perm⟩ := h
  obtain ⟨s, hs⟩ := hwhole fields hfields
  exact exists_of_append (hl.collectMembers_perm perm.symm hs)

/-- The records that begin with some fields of a whole one and then have one too many: an unknown
field, or one that was there before. -/
inductive Strays (l : Layout σ α) (Whole : List (String × Draft) → Prop) :
    Draft → Mismatch → Prop
  | unknown {before : List (String × Draft)} (begins : Begins Whole before) {k : String}
    (new : k ∉ l.names) (v : Draft) (after : List (Option String × Draft)) (stop : Option Break) :
    Strays l Whole (.record (named before ++ (some k, v) :: after) stop)
      (.unknownField k l.names)
  | repeated {before : List (String × Draft)} (begins : Begins Whole before) {k : String}
    (old : k ∈ before.map (·.1)) (v : Draft) (after : List (Option String × Draft))
    (stop : Option Break) :
    Strays l Whole (.record (named before ++ (some k, v) :: after) stop) (.duplicateField k)

/-- Such a record is refused at this field. -/
theorem Regular.read_of_strays (hl : l.Regular) {Whole : List (String × Draft) → Prop}
    (hwhole : l.Collects Whole) {d : Draft} {e : Mismatch} (h : l.Strays Whole d e) :
    l.read d = .error (.mismatch e) := by
  cases h with
  | unknown begins new v after stop =>
    obtain ⟨s, hs⟩ := hl.exists_collect_of_begins hwhole begins
    exact hl.read_of_unknown hs new v after stop
  | repeated begins old v after stop =>
    obtain ⟨s, hs⟩ := hl.exists_collect_of_begins hwhole begins
    exact hl.read_of_repeated hs old v after stop

/-- The drafts that begin with some fields of a whole record and go on with a new one of this name
and value: a record, or a list if the fields are the first ones of the layout. -/
inductive GoesOn (l : Layout σ α) (Whole : List (String × Draft) → Prop) (k : String) (v : Draft) :
    Draft → Prop
  | record {before : List (String × Draft)} (begins : Begins Whole before)
    (new : k ∉ before.map (·.1)) (after : List (Option String × Draft)) (stop : Option Break) :
    GoesOn l Whole k v (.record (named before ++ (some k, v) :: after) stop)
  | list {before : List (String × Draft)} (begins : Begins Whole before)
    (first : before.map (·.1) ++ [k] <+: l.names) (after : List Draft) (stop : Option Break) :
    GoesOn l Whole k v (.list (before.map (·.2) ++ v :: after) stop)

/-- A field whose name comes after some names in the layout is the next one. -/
theorem Regular.exists_drop (hl : l.Regular) {f : Field σ} (hf : f ∈ l.fields)
    {before : List (String × Draft)} (first : before.map (·.1) ++ [f.name] <+: l.names) :
    ∃ fs, l.fields.drop before.length = f :: fs := by
  obtain ⟨rest, hrest⟩ := first
  rw [List.append_assoc] at hrest
  have hnames : (l.fields.drop before.length).map (·.name) = f.name :: rest := names_drop hrest
  obtain ⟨g, fs, hdrop, hname, -⟩ := List.map_eq_cons_iff.mp hnames
  have hg : g ∈ l.fields := List.mem_of_mem_drop (hdrop ▸ List.mem_cons_self)
  exact ⟨fs, List.inj_on_of_nodup_map hl.nodup hg hf hname ▸ hdrop⟩

/-- A draft is refused if it goes on with a value that its field refuses. -/
theorem Regular.read_of_goesOn (hl : l.Regular) {Whole : List (String × Draft) → Prop}
    (hwhole : l.Collects Whole) {f : Field σ} (hf : f ∈ l.fields) {v : Draft} {e : ReadError}
    (hv : ∀ s, f.take v s = .error e) {d : Draft} (h : l.GoesOn Whole f.name v d) :
    l.read d = .error e := by
  cases h with
  | record begins new after stop =>
    obtain ⟨s, hs⟩ := hl.exists_collect_of_begins hwhole begins
    have hpresent : f.present s = false := by
      rw [Bool.eq_false_iff, ne_eq, hl.present_of_collect hs hf, hl.fresh f hf]
      simp [new]
    refine read_of_error hs ?_ stop
    rw [hl.collectMembers_cons hf hpresent, hv]
    rfl
  | @list before begins first after stop =>
    obtain ⟨s, hs⟩ := hl.exists_collect_of_begins hwhole begins
    have hbefore : before.map (·.1) <+: l.names := (List.prefix_append _ _).trans first
    have hitems := hl.collectItems_append stop before (v :: after) (List.nil_append _).symm hbefore
      0 hl.fresh
    obtain ⟨fs, hfs⟩ := hl.exists_drop hf first
    rw [hs, hfs] at hitems
    unfold read
    dsimp only
    rw [hitems]
    change (l.collectItems stop _ (f :: fs) (v :: after) s >>= l.build) = _
    rw [collectItems, hv]
    rfl

/-- The drafts in which one of some numbers, which are given with the sizes of their words, is out
of range. -/
def OutOfRange (l : Layout σ α) (Whole : List (String × Draft) → Prop)
    (numbers : List (String × Nat)) (d : Draft) : Prop :=
  ∃ name bits n, (name, bits) ∈ numbers ∧ n.Beyond bits ∧ l.GoesOn Whole name (.number n) d

/-- They are refused if the fields of the numbers take only such words. -/
theorem Regular.read_of_outOfRange (hl : l.Regular) {Whole : List (String × Draft) → Prop}
    (hwhole : l.Collects Whole) {numbers : List (String × Nat)}
    (hnumbers : ∀ p ∈ numbers, ∃ f ∈ l.fields, f.name = p.1 ∧
      ∀ d e s, d.toUnsigned p.2 = .error e → f.take d s = .error e)
    {d : Draft} (h : l.OutOfRange Whole numbers d) : ∃ e, l.read d = .error e := by
  obtain ⟨name, bits, n, hmem, hbeyond, hgoesOn⟩ := h
  obtain ⟨f, hf, rfl, htake⟩ := hnumbers (name, bits) hmem
  obtain ⟨e, he⟩ := toUnsigned_of_beyond hbeyond
  exact ⟨e, hl.read_of_goesOn hwhole hf (fun s => htake _ e s he) hgoesOn⟩

end Layout

end TableSnapshots.Json
