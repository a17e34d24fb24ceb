import BladeForm.Proofs.Tree.Replacement

/-!
Writing by way of a temporary file. The folders of a path are made, the content goes to a new file
beside the place of the path, and that file is moved there; the environment may refuse at any of
these steps, and then the temporary file is taken away again. Nothing but new folders on the way
of the path is left of what failed, and nothing but these and the file of what succeeded.
-/
namespace BladeForm

theorem setEntry_absent {name : String} {es : Entries} (absent : es.lookup name = none) (n : Node) :
    setEntry name n es = es ++ [(name, n)] := by
  induction es with
  | nil => rfl
  | cons e es ih =>
    rw [lookup_cons_if] at absent
    by_cases same : name = e.1
    · simp [same] at absent
    · rw [if_neg same] at absent
      rw [setEntry, if_neg (Ne.symm same), ih absent, List.cons_append]

namespace Node

def remove (n : Node) : Location → Node
  | [] => n
  | name :: rest =>
    match n with
    | .file c => .file c
    | .folder entries =>
      if rest.isEmpty then .folder (entries.filter fun e => e.1 ≠ name)
      else
        match entries.lookup name with
        | some c => .folder (setEntry name (c.remove rest) entries)
        | none => .folder entries

theorem remove_put {n : Node} {loc : Location} {entries : Entries} {name : String}
    (inside : n.descend? loc = some (folder entries)) (absent : entries.lookup name = none)
    (new : Node) : (n.put new (loc ++ [name])).remove (loc ++ [name]) = n := by
  induction loc generalizing n with
  | nil =>
    cases inside
    have others : entries.filter (fun e => e.1 ≠ name) = entries := by
      rw [List.filter_eq_self]
      intro e member
      have apart : e.1 ≠ name := by
        rintro rfl
        exact lookup_none_iff.1 absent (List.mem_map_of_mem member)
      simpa using apart
    rw [List.nil_append, put_absent new absent, setEntry_absent absent]
    simpa [remove] using others
  | cons k ks ih =>
    cases n with
    | file c => cases inside
    | folder es =>
      rw [descend?_cons, Option.bind_eq_some_iff] at inside
      obtain ⟨c, found, below⟩ := inside
      have now : (setEntry k (c.put new (ks ++ [name])) es).lookup k
          = some (c.put new (ks ++ [name])) := by rw [lookup_setEntry, if_pos rfl]
      have deeper : (ks ++ [name]).isEmpty = false := by simp
      rw [List.cons_append, put_present new _ found]
      simp only [remove, deeper, Bool.false_eq_true, if_false, now, setEntry_again, ih below,
        setEntry_same found]

end Node

namespace Tree

def remove (t : Tree) (loc : Location) : Tree :=
  match t.root.remove loc with
  | .folder entries => { t with entries }
  | .file _ => t

theorem remove_put {t : Tree} {l : Location} {name : String} (folder : t.isFolderAt l = true)
    (absent : t.node? (l ++ [name]) = none) (n : Node) :
    (t.put (l ++ [name]) n).remove (l ++ [name]) = t := by
  obtain ⟨entries, inside⟩ := isFolderAt_iff.1 folder
  have free : entries.lookup name = none := by
    rw [node?, Node.descend?_append, ← node?, inside, Option.bind_some,
      Node.descend?_cons] at absent
    cases found : entries.lookup name with
    | none => rfl
    | some c =>
      rw [found] at absent
      cases absent
  have root : (t.put (l ++ [name]) n).root = t.root.put n (l ++ [name]) := by
    cases l with
    | nil => exact root_put t name [] n
    | cons k ks => exact root_put t k (ks ++ [name]) n
  rw [remove, root, Node.remove_put inside free]
  exact eq_of_root rfl (current_put t _ n)

/-- Where the environment refuses: after some of the folders, at the temporary file, when that
    holds some text, or when it is moved. -/
inductive Fault where
  | folders (made : Nat)
  | opening
  | content (written : String)
  | move
deriving DecidableEq, Repr

def moveTo? (t : Tree) (source : Location) (p : Path) : Option Tree := do
  let loc ← t.target? p
  let n ← t.node? source
  some ((t.remove source).put loc n)

def writeIn (t : Tree) (l : Location) (scratch : String) (fault : Option Fault) (p : Path)
    (s : String) : Tree × Bool :=
  let temporary := l ++ [scratch]
  let filled (text : String) := t.put temporary (.file (.text text))
  match fault with
  | some .opening => (t, false)
  | some (.content written) => ((filled written).remove temporary, false)
  | some .move => ((filled s).remove temporary, false)
  | _ =>
    match (filled s).moveTo? temporary p with
    | none => ((filled s).remove temporary, false)
    | some t => (t, true)

/-- Makes the folders of a path, then writes the file by way of a temporary one. -/
def stage (t : Tree) (scratch : String) (fault : Option Fault) (p : Path) (s : String) :
    Tree × Bool :=
  let folder := folderOf p
  if !isSpeakable folder then (t, false)
  else
    match fault with
    | some (.folders made) =>
      ((t.makeFolders (t.origin folder) (folder.segments.take made)).1, false)
    | _ =>
      match t.makeFolders (t.origin folder) folder.segments with
      | (t, none) => (t, false)
      | (t, some l) => if t.isFolderAt l then t.writeIn l scratch fault p s else (t, false)

def IsFresh (t : Tree) (scratch : String) (p : Path) : Prop :=
  ∀ made l, t.makeFolders (t.origin (folderOf p)) (folderOf p).segments = (made, some l) →
    made.node? (l ++ [scratch]) = none

section
variable {t : Tree} {l : Location} {scratch : String} {p : Path}
  (folder : t.isFolderAt l = true) (absent : t.node? (l ++ [scratch]) = none)
  (leads : (folderOf p).segments.foldlM t.follow (t.origin (folderOf p)) = some l)
include folder absent leads

theorem target?_filled (c : Content) :
    (t.put (l ++ [scratch]) (.file c)).target? p = t.target? p := by
  have free : t.isFolderAt (l ++ [scratch]) = false := by simp [isFolderAt, absent]
  have grows := grows_put (.file c) free
  refine Option.ext fun loc => ?_
  rw [target?_iff, target?_iff, origin_grows grows]
  constructor
  · rintro ⟨name, before, other, split, speakable, entry, follows, rfl, _, noFolder⟩
    have first := (folderOf_leads_iff split (isEntryName_iff.1 entry).1 folder).1 leads
    rw [followAll_grows grows first] at follows
    cases follows
    refine ⟨name, before, l, split, speakable, entry, first, rfl, folder, ?_⟩
    rw [← Bool.not_eq_true] at noFolder ⊢
    exact fun there => noFolder (grows_isFolderAt grows there)
  · rintro ⟨name, before, other, split, speakable, entry, follows, rfl, inside, noFolder⟩
    refine ⟨name, before, other, split, speakable, entry, followAll_grows grows follows, rfl,
      grows_isFolderAt grows inside, ?_⟩
    rw [← Bool.not_eq_true, isFolderAt_entry] at noFolder ⊢
    by_cases same : other ++ [String.ofList name] = l ++ [scratch]
    · rw [same, entryAt?_file.2 (node?_put _ _ folder)]
      simp
    · rwa [entryAt?_put (Node.bare_file c) free same]

theorem writeIn_none (s : String) : t.writeIn l scratch none p s
    = match t.target? p with
      | none => (t, false)
      | some loc => (t.put loc (.file (.text s)), true) := by
  simp only [writeIn, moveTo?, target?_filled folder absent leads, remove_put folder absent,
    node?_put _ _ folder]
  cases t.target? p <;> rfl

end

theorem writeIn_fault {t : Tree} {l : Location} {scratch : String}
    (folder : t.isFolderAt l = true) (absent : t.node? (l ++ [scratch]) = none) (fault : Fault)
    (late : ∀ made, fault ≠ .folders made) (p : Path) (s : String) :
    t.writeIn l scratch (some fault) p s = (t, false) := by
  cases fault with
  | folders made => exact absurd rfl (late made)
  | opening => rfl
  | content written => simp only [writeIn, remove_put folder absent]
  | move => simp only [writeIn, remove_put folder absent]

section
variable {t : Tree} {scratch : String} {p : Path} (fresh : t.IsFresh scratch p) (s : String)
include fresh

/-- Where nothing refuses, a temporary file makes no difference. -/
theorem stage_none : t.stage scratch none p s = t.write p s := by
  unfold stage write
  dsimp only
  split
  · rfl
  · cases folders : t.makeFolders (t.origin (folderOf p)) (folderOf p).segments with
    | mk made reached =>
    cases reached with
    | none => rfl
    | some l =>
      obtain ⟨grows, leads⟩ := makeFolders_made folders
      rw [← origin_grows grows] at leads
      dsimp only
      split
      · next folder => exact writeIn_none folder (fresh _ _ folders) leads s
      · next noFolder =>
        have nowhere : made.target? p = none := by
          rw [Option.eq_none_iff_forall_ne_some]
          intro loc found
          obtain ⟨name, before, other, split, _, entry, follows, _, inside, _⟩ :=
            target?_iff.1 found
          have there := (folderOf_leads_iff split (isEntryName_iff.1 entry).1 inside).2 follows
          rw [leads] at there
          cases there
          exact noFolder inside
        rw [nowhere]

theorem stage_fault (fault : Fault) : ∃ made segments reached,
    t.stage scratch (some fault) p s = (made, false) ∧ segments <+: (folderOf p).segments ∧
      t.makeFolders (t.origin (folderOf p)) segments = (made, reached) := by
  unfold stage
  dsimp only
  split
  · exact ⟨t, [], some _, rfl, List.nil_prefix, rfl⟩
  · split
    · next n _ => exact ⟨_, _, _, rfl, List.take_prefix n _, rfl⟩
    · next late =>
      split
      · next made folders => exact ⟨made, _, none, rfl, List.prefix_rfl, folders⟩
      · next made l folders =>
        refine ⟨made, _, some l, ?_, List.prefix_rfl, folders⟩
        split
        · next folder =>
          refine writeIn_fault folder (fresh _ _ folders) fault ?_ p s
          rintro n rfl
          exact late n rfl
        · rfl

end

def LiesAbove (t : Tree) (p : Path) (loc : Location) : Prop :=
  ∃ before after, p.segments = before ++ after ∧ (∃ s ∈ after, Path.isSilent s = false) ∧
    before.foldlM t.follow (t.origin p) = some loc

def KeptOrAbove (t t' : Tree) (p : Path) (loc : Location) : Prop :=
  t'.entryAt? loc = t.entryAt? loc ∨
    t.entryAt? loc = none ∧ t'.entryAt? loc = some none ∧ t'.LiesAbove p loc

theorem folderOf_cases (p : Path) : (∀ s ∈ (folderOf p).segments, Path.isSilent s = true) ∨
    ∃ before after, p.segments = before ++ after ∧ (∃ s ∈ after, Path.isSilent s = false) ∧
      (folderOf p).isAbsolute = p.isAbsolute ∧
      Path.steps (folderOf p).segments = Path.steps before := by
  have here : ∀ s ∈ (⟨"."⟩ : Path).segments, Path.isSilent s = true := by decide
  cases parent : p.parent? with
  | none =>
    rw [folderOf, parent]
    exact Or.inl here
  | some q =>
    by_cases empty : q.text = ""
    · simp only [folderOf, parent, empty, if_true]
      exact Or.inl here
    · obtain ⟨before, after, split, on, begins, steps⟩ := Path.parent?_above parent empty
      simp only [folderOf, parent, empty, if_false]
      exact Or.inr ⟨before, after, split, on, isAbsolute_begins begins empty, steps⟩

theorem makeFolders_silent {t t' : Tree} {l : Location} {segments : List (List Char)}
    {reached : Option Location} (silent : ∀ s ∈ segments, Path.isSilent s = true)
    (made : t.makeFolders l segments = (t', reached)) : t' = t := by
  induction segments generalizing l with
  | nil =>
    cases made
    rfl
  | cons s rest ih =>
    obtain ⟨first, later⟩ := List.forall_mem_cons.1 silent
    rw [makeFolders] at made
    split at made
    · exact ih later made
    · simp only [first, Bool.true_or, if_true] at made
      cases made
      rfl

theorem makeFolders_above {t t' : Tree} {p : Path} {segments : List (List Char)}
    {reached : Option Location} (begins : segments <+: (folderOf p).segments)
    (made : t.makeFolders (t.origin (folderOf p)) segments = (t', reached)) (loc : Location) :
    KeptOrAbove t t' p loc := by
  rcases folderOf_cases p with silent | ⟨before, after, split, on, same, steps⟩
  · rw [makeFolders_silent (fun s member => silent s (begins.subset member)) made]
    exact Or.inl rfl
  · obtain ⟨grows, adds⟩ := makeFolders_adds made
    refine (adds loc).imp_right ?_
    rintro ⟨absent, folder, done, first, leads⟩
    have inside := isFolderAt_entry.2 folder
    have way : Path.steps done <+: Path.steps before := by
      rw [← steps]
      exact (first.trans begins).filter _
    obtain ⟨front, ⟨between, rfl⟩, passed⟩ := Path.steps_begin way
    refine ⟨absent, folder, front, between ++ after, by rw [split, List.append_assoc], ?_, ?_⟩
    · obtain ⟨s, member, named⟩ := on
      exact ⟨s, List.mem_append_right _ member, named⟩
    · rw [followAll_steps inside, passed, ← followAll_steps inside, origin_grows grows, origin,
        ← same]
      exact leads

/-- What becomes of a tree where a text is written: the path reads it, no folder was in its place,
    and elsewhere nothing has changed but for new folders on the way. -/
def IsWritten (t t' : Tree) (p : Path) (s : String) : Prop :=
  t'.read? p = some s ∧ ∃ place, t'.place? p = some place ∧ t.isFolderAt place = false ∧
    ∀ loc, loc ≠ place → KeptOrAbove t t' p loc

theorem write_written {t t' : Tree} {p : Path} {s : String} (written : t.write p s = (t', true)) :
    IsWritten t t' p s := by
  refine ⟨write_read written, ?_⟩
  obtain ⟨_, made, l, place, folders, target, rfl⟩ := write_iff.1 written
  obtain ⟨_, _, _, _, _, _, _, rfl, inside, free⟩ := target?_iff.1 target
  have grows := grows_put (.file (.text s)) free
  have noFolder : ∀ loc, made.isFolderAt loc = false → t.isFolderAt loc = false := fun loc none =>
    Bool.eq_false_iff.2 fun there =>
      Bool.eq_false_iff.1 none (grows_isFolderAt (makeFolders_made folders).1 there)
  refine ⟨_, place?_target target grows (by simp [node?_put _ _ inside]), noFolder _ free,
    fun loc apart => ?_⟩
  have same := entryAt?_put (Node.bare_file (.text s)) free apart
  rw [KeptOrAbove, same]
  refine (makeFolders_above List.prefix_rfl folders loc).imp_right ?_
  rintro ⟨absent, folder, before, after, split, on, leads⟩
  refine ⟨absent, folder, before, after, split, on, ?_⟩
  rw [origin_grows grows]
  exact followAll_grows grows leads

theorem write_refused {t t' : Tree} {p : Path} {s : String} (failed : t.write p s = (t', false))
    (loc : Location) : KeptOrAbove t t' p loc := by
  rw [write] at failed
  split at failed
  · cases failed
    exact Or.inl rfl
  · split at failed
    · next folders =>
      cases failed
      exact makeFolders_above List.prefix_rfl folders loc
    · next folders =>
      split at failed
      · cases failed
        exact makeFolders_above List.prefix_rfl folders loc
      · cases failed

/-- A path that leads to a folder, or that goes on behind a file. -/
def Blocked (t : Tree) (p : Path) : Prop :=
  (∃ loc, t.place? p = some loc ∧ t.entryAt? loc = some none) ∨
    ∃ before after loc c, p.segments = before ++ after ∧ after ≠ [] ∧
      before.foldlM t.follow (t.origin p) = some loc ∧ t.entryAt? loc = some (some c)

theorem read?_unblocked {t : Tree} {p : Path} {s : String} (read : t.read? p = some s) :
    ¬ Blocked t p := by
  obtain ⟨loc, place, file⟩ := read?_iff.1 read
  rintro (⟨other, there, folder⟩ | ⟨before, after, other, c, split, on, leads, blocks⟩)
  · rw [place] at there
    cases there
    rw [file] at folder
    cases folder
  · obtain ⟨next, rest, rfl⟩ := List.exists_cons_of_ne_nil on
    rw [place?] at place
    split at place
    · rw [split, List.foldlM_append, leads, Option.bind_eq_bind, Option.bind_some,
        List.foldlM_cons, Option.bind_eq_bind, Option.bind_eq_some_iff] at place
      obtain ⟨_, follows, _⟩ := place
      have folder := isFolderAt_entry.1 (follow_cases follows).1
      rw [blocks] at folder
      cases folder
    · cases place

theorem written_unblocked {t t' : Tree} {p : Path} {s : String}
    (written : t.write p s = (t', true)) : ¬ Blocked t p := by
  obtain ⟨grows, place, _, file, _, others⟩ := write_puts written
  intro blocked
  refine read?_unblocked (write_read written) (blocked.imp ?_ ?_)
  · rintro ⟨loc, leads, folder⟩
    rw [← isFolderAt_entry] at folder
    exact ⟨loc, place?_grows grows leads, isFolderAt_entry.1 (grows_isFolderAt grows folder)⟩
  · rintro ⟨before, after, loc, c, split, on, leads, blocks⟩
    rw [← origin_grows grows] at leads
    have still : ∃ d, t'.entryAt? loc = some (some d) := by
      by_cases here : loc = place
      · exact ⟨_, here ▸ file⟩
      · exact ⟨c, (kept_file (others loc here) c).2 blocks⟩
    obtain ⟨d, still⟩ := still
    exact ⟨before, after, loc, d, split, on, followAll_grows grows leads, still⟩

/-- Whatever refuses, and wherever: a file is written as a whole or not at all. Where nothing
    refuses, the temporary file makes no difference, and a file that is there is replaced. If the
    file was written, its path reads the text, and elsewhere nothing but folders on the way of the
    path is new; if not, nothing else is new either; and it is not if a folder or a file is in the
    way, before or after the folders are made. -/
theorem staging_whole {t : Tree} {scratch : String} {p : Path} (fresh : t.IsFresh scratch p)
    (s : String) (fault : Option Fault) :
    t.stage scratch none p s = t.write p s ∧
      (t.isFile p = true → (t.stage scratch none p s).2 = true) ∧
      ((t.stage scratch fault p s).2 = true → IsWritten t (t.stage scratch fault p s).1 p s) ∧
      ((t.stage scratch fault p s).2 = false →
        ∀ loc, KeptOrAbove t (t.stage scratch fault p s).1 p loc) ∧
      (Blocked t p ∨ Blocked (t.stage scratch fault p s).1 p →
        (t.stage scratch fault p s).2 = false) := by
  have plain := stage_none fresh s
  refine ⟨plain, fun file => ?_, ?_⟩
  · obtain ⟨loc, c, place, there⟩ := isFile_iff.1 file
    rw [plain, write_present place there]
  · cases fault with
    | some fault =>
      obtain ⟨made, segments, reached, staged, begins, folders⟩ := stage_fault fresh s fault
      rw [staged]
      exact ⟨nofun, fun _ => makeFolders_above begins folders, fun _ => rfl⟩
    | none =>
      rw [plain]
      cases written : t.write p s with
      | mk t' ok =>
        cases ok with
        | false => exact ⟨nofun, fun _ => write_refused written, fun _ => rfl⟩
        | true =>
          refine ⟨fun _ => write_written written, nofun, fun blocked => ?_⟩
          exact (blocked.elim (written_unblocked written)
            (read?_unblocked (write_read written))).elim

def siteTree : Tree :=
  ⟨[("site", .folder [("views", .folder [("form.blade.php", .file (.text "old"))])])], ["site"]⟩

def steppingPath : Path := ⟨"views/posts/../form.blade.php"⟩

theorem stepping_fresh : siteTree.IsFresh ".tmpa1" steppingPath := by
  intro made l folders
  have same : siteTree.makeFolders (siteTree.origin (folderOf steppingPath))
      (folderOf steppingPath).segments = (⟨[("site", .folder [("views", .folder
        [("form.blade.php", .file (.text "old")), ("posts", .folder [])])])], ["site"]⟩,
        some ["site", "views"]) := rfl
  rw [same] at folders
  cases folders
  rfl

theorem stepping_path_staged :
    siteTree.IsFresh ".tmpa1" steppingPath ∧
    (siteTree.stage ".tmpa1" none steppingPath "new").2 = true ∧
    IsWritten siteTree (siteTree.stage ".tmpa1" none steppingPath "new").1 steppingPath "new" ∧
    (siteTree.stage ".tmpa1" (some (.content "ne")) steppingPath "new").2 = false ∧
    ∀ loc, KeptOrAbove siteTree
      (siteTree.stage ".tmpa1" (some (.content "ne")) steppingPath "new").1 steppingPath loc := by
  have written : (siteTree.stage ".tmpa1" none steppingPath "new").2 = true := rfl
  have refused : (siteTree.stage ".tmpa1" (some (.content "ne")) steppingPath "new").2 = false :=
    rfl
  exact ⟨stepping_fresh, written, (staging_whole stepping_fresh "new" none).2.2.1 written, refused,
    (staging_whole stepping_fresh "new" (some (.content "ne"))).2.2.2.1 refused⟩

end Tree

end BladeForm
