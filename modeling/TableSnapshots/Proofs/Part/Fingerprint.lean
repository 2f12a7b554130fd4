import TableSnapshots.Proofs.Digest.Hex
import TableSnapshots.Proofs.Part.Remaining
import TableSnapshots.Proofs.Tree.Entry

/-!
# Fingerprints of parts

The fingerprint of a part tells the digest of its manifest and nothing else: parts have the same one
exactly if their manifests have the same digest, and a change that leaves alone what is looked up on
the way to the manifest leaves it as it is (`checksum_tells_digest`). When the manifest is a file
itself, and the way to the part's directory does not lead through what is in it, these are all
changes beside the manifest; a path that never leads up and meets no link is such a way
(`not_besideManifest_of_unlinked`). A manifest that is a link is read where the link leads, which
may be beside it (`not_unchanged_of_link`). Nothing here depends on which digest is taken.
-/

namespace TableSnapshots

variable {m : Type → Type} [Monad m]

/-- The fingerprint of the bytes of a manifest by a digest of 128 bits. -/
def fingerprintBy (digest : ByteArray → BitVec 128) (bytes : ByteArray) : String :=
  Digest.hex (digest bytes)

/-- The place of a data file, a link or a directory beside the manifest of the part at `loc`, or of
anything below such a directory. -/
def BesideManifest (loc l : Location) : Prop :=
  ∃ s r, s ≠ manifestName ∧ l = loc ++ s :: r

/-- The manifest is not beside itself. -/
theorem not_besideManifest_self (loc : Location) :
    ¬ BesideManifest loc (loc ++ [manifestName]) := by
  rintro ⟨s, r, hs, hl⟩
  exact hs (List.cons.inj (List.append_cancel_left hl)).1.symm

/-- A path that never leads up and meets no link looks up nothing in the directory that it leads
to. -/
theorem not_besideManifest_of_unlinked {t : Tree} {dir : Path} {loc l : Location}
    (hup : .up ∉ dir.components) (hlinks : t.Unlinked true [] dir.names)
    (hloc : t.resolve true dir = .ok loc) (hl : l ∈ t.looks true dir) : ¬ BesideManifest loc l := by
  have hnames := Tree.eq_names_of_resolve (Tree.text_ne_empty_of_resolve hloc) hup hlinks hloc
  rintro ⟨s, r, -, rfl⟩
  -- What is looked up has at most as many names as the path, and what is in the directory has more.
  have hshort := (Tree.prefix_of_mem_looks hup hlinks hl).length_le
  rw [hnames, List.length_append, List.length_cons] at hshort
  omega

/-- Digests that differ have fingerprints that differ. -/
theorem fingerprintBy_eq_iff {digest : ByteArray → BitVec 128} {bytes bytes' : ByteArray} :
    fingerprintBy digest bytes = fingerprintBy digest bytes' ↔ digest bytes = digest bytes' :=
  ⟨Digest.hex_injective, congrArg Digest.hex⟩

namespace FrozenPart

/-- The fingerprint of the part in a directory by a digest of 128 bits. -/
def checksumBy (digest : ByteArray → BitVec 128) (files : Files m) (dir : Path) :
    m (Except Fault String) := do
  return (← files.readFile (dir.entry manifestName)).map (fingerprintBy digest)

/-- The fingerprint of a part is the one by the xxh3 digest. -/
theorem checksumAt_eq_checksumBy (files : Files m) :
    checksumAt files = checksumBy Digest.xxh3 files := by
  funext dir
  unfold checksumAt checksumBy
  refine congrArg (bind _) (funext fun read => ?_)
  cases read <;> rfl

section Shows

variable {S : Type} {files : Files (StateM S)} {I : S → Prop} {t : Tree}

/-- What is read as the manifest decides the fingerprint. -/
theorem checksumBy_of_readFile (digest : ByteArray → BitVec 128) (hfiles : files.Shows I t) {s : S}
    (hs : I s) {dir : Path} {bytes : ByteArray}
    (hread : t.readFile (dir.entry manifestName) = .ok bytes) :
    ((checksumBy digest files dir).run s).1 = .ok (fingerprintBy digest bytes) := by
  obtain ⟨s', hrun, -⟩ := hfiles.readFile hs (dir.entry manifestName)
  unfold checksumBy
  rw [run_bind_of_eq hrun, hread]
  rfl

end Shows

/-- A part whose manifest can be read has a fingerprint, by any digest of 128 bits. Another part has
the same one exactly if its manifest has the same digest, whatever else is in the two directories.
The fingerprint stays the same if what is looked up on the way to the manifest, through links as
well, stays as it is. This is so for every change beside a manifest that is a file itself, if the
way to the directory leads through nothing there. The fingerprint of some bytes is the only text
with 32 hexadecimal digits in lower case that, read as a number, give back the digest. -/
theorem checksum_tells_digest (digest : ByteArray → BitVec 128) {S S' : Type}
    {files : Files (StateM S)} {files' : Files (StateM S')} {I : S → Prop} {I' : S' → Prop}
    {t t' : Tree} (hfiles : files.Shows I t) (hfiles' : files'.Shows I' t') {s : S} {s' : S'}
    (hs : I s) (hs' : I' s') {dir : Path} {bytes : ByteArray}
    (hread : t.readFile (dir.entry manifestName) = .ok bytes) :
    ((checksumBy digest files dir).run s).1 = .ok (fingerprintBy digest bytes) ∧
    (∀ dir' bytes', t'.readFile (dir'.entry manifestName) = .ok bytes' →
      ((checksumBy digest files' dir').run s').1 = .ok (fingerprintBy digest bytes') ∧
      (fingerprintBy digest bytes = fingerprintBy digest bytes' ↔ digest bytes = digest bytes')) ∧
    ((∀ l ∈ t.looks true (dir.entry manifestName), t'.content? l = t.content? l) →
      ((checksumBy digest files' dir).run s').1 = ((checksumBy digest files dir).run s).1) ∧
    (∀ loc, t.resolve true dir = .ok loc →
      (∃ content, t.content? (loc ++ [manifestName]) = some (.file content)) →
      (∀ l ∈ t.looks true dir, ¬ BesideManifest loc l) →
      (∀ l, ¬ BesideManifest loc l → t'.content? l = t.content? l) →
      ((checksumBy digest files' dir).run s').1 = ((checksumBy digest files dir).run s).1) ∧
    (∀ (data : ByteArray) (text : String),
      text = fingerprintBy digest data ↔ Digest.Spells text (digest data)) ∧
    checksumAt files = checksumBy Digest.xxh3 files ∧
    checksumAt files' = checksumBy Digest.xxh3 files' ∧
    fingerprint = fingerprintBy Digest.xxh3 := by
  have hrun := checksumBy_of_readFile digest hfiles hs hread
  have hunchanged : (∀ l ∈ t.looks true (dir.entry manifestName), t'.content? l = t.content? l) →
      ((checksumBy digest files' dir).run s').1 = ((checksumBy digest files dir).run s).1 := by
    intro hsame
    rw [hrun]
    exact checksumBy_of_readFile digest hfiles' hs' (Tree.readFile_congr hread hsame)
  refine ⟨hrun, fun dir' bytes' hread' => ?_, hunchanged, ?_, fun data text => ?_,
    checksumAt_eq_checksumBy files, checksumAt_eq_checksumBy files', rfl⟩
  · exact ⟨checksumBy_of_readFile digest hfiles' hs' hread', fingerprintBy_eq_iff⟩
  · rintro loc hloc ⟨content, hfile⟩ hway hbeside
    -- All that is looked up is on the way to the directory, or the manifest itself.
    refine hunchanged fun l hl => hbeside l ?_
    rcases Tree.mem_looks_entry_of_file (by decide) hloc hfile hl with hl | rfl
    · exact hway l hl
    · exact not_besideManifest_self loc
  · exact Digest.spells_iff_eq_hex.symm

/-! ## A directory that changes beside its manifest -/

/-- Two parts, with something beside the manifest of the first one and a directory beside that of
the second one. -/
def besideTree (manifest beside : Content) : Tree := ⟨[
  (["p"], { content := .directory }),
  (["p", "checksums.txt"], { content := manifest }),
  (["p", "sub"], { content := beside }),
  (["q"], { content := .directory }),
  (["q", "checksums.txt"], { content := .file ⟨#[2]⟩ }),
  (["q", "x"], { content := .directory })]⟩

/-- What is elsewhere does not depend on it. -/
theorem content?_besideTree {manifest beside beside' : Content} {l : Location}
    (hl : ¬ BesideManifest ["p"] l) :
    (besideTree manifest beside').content? l = (besideTree manifest beside).content? l := by
  have hne : ["p", "sub"] ≠ l := by
    rintro rfl
    exact hl ⟨"sub", [], by decide, rfl⟩
  simp [besideTree, Tree.content?, Tree.node?, List.find?_cons, hne]

/-- Two short manifests have different digests. -/
theorem xxh3_one_ne_two : Digest.xxh3 ⟨#[1]⟩ ≠ Digest.xxh3 ⟨#[2]⟩ := by decide +kernel

/-- A directory beside a manifest becomes a link into another part. The part's fingerprint stays the
same, and the other part has a different one. -/
theorem checksum_tells_digest_beside :
    let w : World Unit := ⟨(), besideTree (.file ⟨#[1]⟩) .directory, [], [], [], [], []⟩
    let w' : World Unit := ⟨(), besideTree (.file ⟨#[1]⟩) (.link "../q/x"), [], [], [], [], []⟩
    let files := (World.host (constantEngine (.ok (.text ""))) (.noted (.ok ()))).toFiles
    ∃ text text', ((checksumAt files ⟨"/p"⟩).run w).1 = .ok text ∧ text.length = 32 ∧
      ((checksumAt files ⟨"/p"⟩).run w').1 = .ok text ∧
      ((checksumAt files ⟨"/q"⟩).run w').1 = .ok text' ∧ text ≠ text' := by
  intro w w' files
  have hshows := World.shows_host (constantEngine (.ok (.text ""))) (.noted (.ok ()))
  have hwell : w.tree.WellFormed := by decide +kernel
  have hlinks := hwell.nested.unlinked (show w.tree.content? ["p"] = some .directory from rfl)
  have hway : ∀ l ∈ w.tree.looks true ⟨"/p"⟩, ¬ BesideManifest ["p"] l :=
    fun l hl => not_besideManifest_of_unlinked (by decide) hlinks rfl hl
  obtain ⟨hrun, hother, -, hbeside, hspells, hxxh3, -⟩ :=
    checksum_tells_digest Digest.xxh3 (hshows w) (hshows w') rfl rfl
      (show w.tree.readFile (Path.entry ⟨"/p"⟩ manifestName) = .ok ⟨#[1]⟩ from rfl)
  obtain ⟨hrun', hsame⟩ := hother ⟨"/q"⟩ ⟨#[2]⟩ rfl
  have hunchanged := hbeside ["p"] rfl ⟨⟨#[1]⟩, rfl⟩ hway fun l hl => content?_besideTree hl
  rw [hrun] at hunchanged
  rw [hxxh3]
  exact ⟨_, _, hrun, ((hspells _ _).mp rfl).length, hunchanged, hrun', fun htext =>
    xxh3_one_ne_two (hsame.mp htext)⟩

/-- The fingerprint of a part whose manifest is a link changes with the data file that the link
leads to. So does that of a directory that is spelled through an entry of its own, if this becomes
a link to somewhere else. -/
theorem not_unchanged_of_link :
    let files := (World.host (constantEngine (.ok (.text ""))) (.noted (.ok ()))).toFiles
    (¬ ∀ (w w' : World Unit) (dir : Path) (loc : Location),
      w.tree.WellFormed → w'.tree.WellFormed → w.tree.resolve true dir = .ok loc →
      (∃ bytes, w.tree.readFile (dir.entry manifestName) = .ok bytes) →
      (∃ bytes, w'.tree.readFile (dir.entry manifestName) = .ok bytes) →
      (∀ l, ¬ BesideManifest loc l → w'.tree.content? l = w.tree.content? l) →
      ((checksumAt files dir).run w').1 = ((checksumAt files dir).run w).1) ∧
    ¬ ∀ (w w' : World Unit) (dir : Path) (loc : Location),
      w.tree.WellFormed → w'.tree.WellFormed → w.tree.resolve true dir = .ok loc →
      (∃ bytes, w.tree.content? (loc ++ [manifestName]) = some (.file bytes)) →
      (∃ bytes, w'.tree.readFile (dir.entry manifestName) = .ok bytes) →
      (∀ l, ¬ BesideManifest loc l → w'.tree.content? l = w.tree.content? l) →
      ((checksumAt files dir).run w').1 = ((checksumAt files dir).run w).1 := by
  intro files
  have hdiffer : ∀ {w w' : World Unit} {dir : Path},
      w.tree.readFile (dir.entry manifestName) = .ok ⟨#[1]⟩ →
      w'.tree.readFile (dir.entry manifestName) = .ok ⟨#[2]⟩ →
      ((checksumAt files dir).run w').1 ≠ ((checksumAt files dir).run w).1 := by
    intro w w' dir hread hread' hsame
    have hshows := World.shows_host (constantEngine (.ok (.text ""))) (.noted (.ok ()))
    rw [checksumAt_eq_checksumBy, checksumBy_of_readFile Digest.xxh3 (hshows w) rfl hread,
      checksumBy_of_readFile Digest.xxh3 (hshows w') rfl hread'] at hsame
    exact xxh3_one_ne_two (fingerprintBy_eq_iff.mp (Except.ok.inj hsame)).symm
  constructor
  · -- The manifest is the file beside it, which changes.
    intro h
    let w : World Unit := ⟨(), besideTree (.link "sub") (.file ⟨#[1]⟩), [], [], [], [], []⟩
    let w' : World Unit := ⟨(), besideTree (.link "sub") (.file ⟨#[2]⟩), [], [], [], [], []⟩
    have hread : w.tree.readFile (Path.entry ⟨"/p"⟩ manifestName) = .ok ⟨#[1]⟩ := by rfl
    have hread' : w'.tree.readFile (Path.entry ⟨"/p"⟩ manifestName) = .ok ⟨#[2]⟩ := by rfl
    exact hdiffer hread hread' (h w w' ⟨"/p"⟩ ["p"] (by decide +kernel) (by decide +kernel) rfl
      ⟨_, hread⟩ ⟨_, hread'⟩ fun l hl => content?_besideTree hl)
  · -- The way leads down and up again, from another place after the change.
    intro h
    let w : World Unit := ⟨(), besideTree (.file ⟨#[1]⟩) .directory, [], [], [], [], []⟩
    let w' : World Unit := ⟨(), besideTree (.file ⟨#[1]⟩) (.link "../q/x"), [], [], [], [], []⟩
    have hread : w.tree.readFile (Path.entry ⟨"/p/sub/.."⟩ manifestName) = .ok ⟨#[1]⟩ := by rfl
    have hread' : w'.tree.readFile (Path.entry ⟨"/p/sub/.."⟩ manifestName) = .ok ⟨#[2]⟩ := by rfl
    exact hdiffer hread hread' (h w w' ⟨"/p/sub/.."⟩ ["p"] (by decide +kernel) (by decide +kernel)
      rfl ⟨⟨#[1]⟩, rfl⟩ ⟨_, hread'⟩ fun l hl => content?_besideTree hl)

end FrozenPart

end TableSnapshots
