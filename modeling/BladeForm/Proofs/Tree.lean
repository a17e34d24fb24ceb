import BladeForm.Proofs.Basic
import BladeForm.Tree

/-!
What a write does to the places that paths lead to. Nothing that was there goes away and
folders stay folders, so every path that led somewhere still leads there; and the written file
is where its path leads.
-/
namespace BladeForm

theorem lookup_setEntry (name key : String) (n : Node) (es : Entries) :
    (setEntry name n es).lookup key = if key = name then some n else es.lookup key := by
  induction es with
  | nil => exact lookup_cons_if name key n []
  | cons e es ih =>
    obtain ⟨k, old⟩ := e
    rw [setEntry]
    split
    · next found =>
      subst k
      rw [lookup_cons_if, lookup_cons_if]
      split <;> rfl
    · next other =>
      rw [lookup_cons_if, lookup_cons_if, ih]
      split
      · next same =>
        subst key
        simp [other]
      · rfl

namespace Node

theorem descend?_cons (entries : Entries) (name : String) (rest : Location) :
    (folder entries).descend? (name :: rest)
      = (entries.lookup name).bind fun c => c.descend? rest := rfl

theorem descend?_file_cons (c : Content) (name : String) (rest : Location) :
    (file c).descend? (name :: rest) = none := rfl

theorem put_present {entries : Entries} {name : String} {old : Node} (new : Node) (rest : Location)
    (found : entries.lookup name = some old) :
    (folder entries).put new (name :: rest) = folder (setEntry name (old.put new rest) entries) := by
  simp [put, found]

theorem put_absent {entries : Entries} {name : String} (new : Node)
    (absent : entries.lookup name = none) :
    (folder entries).put new [name] = folder (setEntry name new entries) := by
  simp [put, absent]

theorem descend?_put {n : Node} {loc : Location} {entries : Entries} (new : Node) (name : String)
    (inside : n.descend? loc = some (folder entries)) :
    (n.put new (loc ++ [name])).descend? (loc ++ [name]) = some new := by
  induction loc generalizing n with
  | nil =>
    cases inside
    rw [List.nil_append]
    cases found : entries.lookup name with
    | none =>
      rw [put_absent new found, descend?_cons, lookup_setEntry]
      simp [descend?]
    | some old =>
      rw [put_present new [] found, descend?_cons, lookup_setEntry]
      simp [descend?, put]
  | cons k ks ih =>
    cases n with
    | file c => simp [descend?_file_cons] at inside
    | folder es =>
      rw [descend?_cons, Option.bind_eq_some_iff] at inside
      obtain ⟨c, found, inside⟩ := inside
      rw [List.cons_append, put_present new _ found, descend?_cons, lookup_setEntry]
      simpa using ih inside

/-- What is replaced is no folder, so everything else stays where it is. -/
theorem put_keeps {n m : Node} {loc other : Location} (new : Node)
    (replaced : ∀ old, n.descend? loc = some old → old.isFolder = false)
    (there : n.descend? other = some m) :
    ∃ m', (n.put new loc).descend? other = some m' ∧ (m.isFolder = true → m'.isFolder = true) := by
  induction loc generalizing n other with
  | nil =>
    have noFolder := replaced n rfl
    cases n with
    | folder es => contradiction
    | file c =>
      cases other with
      | nil =>
        cases there
        exact ⟨new, rfl, by simp [isFolder]⟩
      | cons k ks => contradiction
  | cons name rest ih =>
    cases n with
    | file c => exact ⟨m, there, id⟩
    | folder es =>
      cases other with
      | nil =>
        cases there
        cases found : es.lookup name with
        | some old => exact ⟨_, by rw [put_present new rest found]; rfl, fun _ => rfl⟩
        | none =>
          cases rest with
          | nil => exact ⟨_, by rw [put_absent new found]; rfl, fun _ => rfl⟩
          | cons r rs => exact ⟨folder es, by simp [put, found, descend?], fun _ => rfl⟩
      | cons k ks =>
        rw [descend?_cons, Option.bind_eq_some_iff] at there
        obtain ⟨c, child, below⟩ := there
        cases found : es.lookup name with
        | some old =>
          rw [put_present new rest found, descend?_cons, lookup_setEntry]
          by_cases same : k = name
          · subst k
            rw [found] at child
            cases child
            simpa using ih (fun o ho => replaced o (by simp [descend?_cons, found, ho])) below
          · exact ⟨m, by simp [same, child, below], id⟩
        | none =>
          cases rest with
          | nil =>
            rw [put_absent new found, descend?_cons, lookup_setEntry]
            have other : k ≠ name := by
              rintro rfl
              rw [found] at child
              contradiction
            exact ⟨m, by simp [other, child, below], id⟩
          | cons r rs => exact ⟨m, by simp [put, found, descend?_cons, child, below], id⟩

end Node

namespace Tree

/-- Everything there is still there, and folders are still folders. -/
structure Grows (t t' : Tree) : Prop where
  current : t'.current = t.current
  keeps : ∀ loc n, t.node? loc = some n →
    ∃ n', t'.node? loc = some n' ∧ (n.isFolder = true → n'.isFolder = true)

theorem grows_refl (t : Tree) : Grows t t := ⟨rfl, fun _ n there => ⟨n, there, id⟩⟩

theorem grows_trans {a b c : Tree} (first : Grows a b) (second : Grows b c) : Grows a c := by
  refine ⟨second.current.trans first.current, ?_⟩
  intro loc n there
  obtain ⟨n', there', folder'⟩ := first.keeps loc n there
  obtain ⟨n'', there'', folder''⟩ := second.keeps loc n' there'
  exact ⟨n'', there'', fun h => folder'' (folder' h)⟩

theorem isFolderAt_iff {t : Tree} {loc : Location} :
    t.isFolderAt loc = true ↔ ∃ entries, t.node? loc = some (.folder entries) := by
  rw [isFolderAt, Option.any_eq_true]
  constructor
  · rintro ⟨n, there, folder⟩
    cases n with
    | file c => contradiction
    | folder entries => exact ⟨entries, there⟩
  · rintro ⟨entries, there⟩
    exact ⟨_, there, rfl⟩

theorem grows_isFolderAt {t t' : Tree} (grows : Grows t t') {loc : Location}
    (folder : t.isFolderAt loc = true) : t'.isFolderAt loc = true := by
  rw [isFolderAt, Option.any_eq_true] at folder ⊢
  obtain ⟨n, there, isFolder⟩ := folder
  obtain ⟨n', there', keeps⟩ := grows.keeps loc n there
  exact ⟨n', there', keeps isFolder⟩

theorem grows_node_isSome {t t' : Tree} (grows : Grows t t') {loc : Location}
    (there : (t.node? loc).isSome = true) : (t'.node? loc).isSome = true := by
  obtain ⟨n, there⟩ := Option.isSome_iff_exists.1 there
  obtain ⟨n', there', _⟩ := grows.keeps loc n there
  simp [there']

theorem root_put (t : Tree) (name : String) (rest : Location) (n : Node) :
    (t.put (name :: rest) n).root = t.root.put n (name :: rest) := by
  rw [put]
  split
  · next entries found => rw [found]; rfl
  · next c found =>
    simp only [root, Node.put] at found
    split at found
    · contradiction
    · split at found <;> contradiction

theorem current_put (t : Tree) (loc : Location) (n : Node) : (t.put loc n).current = t.current := by
  rw [put]
  split <;> rfl

theorem node?_put {t : Tree} {l : Location} (n : Node) (name : String)
    (folder : t.isFolderAt l = true) : (t.put (l ++ [name]) n).node? (l ++ [name]) = some n := by
  obtain ⟨entries, inside⟩ := isFolderAt_iff.1 folder
  cases l with
  | nil =>
    rw [node?, List.nil_append, root_put]
    exact Node.descend?_put n name inside
  | cons k ks =>
    rw [node?, List.cons_append, root_put]
    exact Node.descend?_put n name inside

theorem grows_put {t : Tree} {loc : Location} (n : Node) (replaced : t.isFolderAt loc = false) :
    Grows t (t.put loc n) := by
  refine ⟨current_put t loc n, ?_⟩
  intro other m there
  have noFolder : ∀ old, t.root.descend? loc = some old → old.isFolder = false := by
    intro old found
    simpa [isFolderAt, node?, found] using replaced
  cases loc with
  | nil => exact absurd (noFolder t.root rfl) (by simp [root, Node.isFolder])
  | cons name rest =>
    rw [node?, root_put]
    exact Node.put_keeps n noFolder there

theorem follow_grows {t t' : Tree} (grows : Grows t t') {l next : Location} {s : List Char}
    (follows : t.follow l s = some next) : t'.follow l s = some next := by
  simp only [follow] at follows ⊢
  split at follows
  · contradiction
  · next folder =>
    have folder' := grows_isFolderAt grows (by simpa using folder)
    simp only [folder', Bool.not_true, Bool.false_eq_true, ↓reduceIte]
    split at follows
    · next silent => simpa [silent] using follows
    · next silent =>
      split at follows
      · next upward => simpa [silent, upward] using follows
      · next upward =>
        split at follows
        · contradiction
        · next legal =>
          split at follows
          · next there =>
            have there' := grows_node_isSome grows there
            simpa [silent, upward, legal, there'] using follows
          · contradiction

theorem followAll_grows {t t' : Tree} (grows : Grows t t') {l next : Location}
    {segments : List (List Char)} (follows : segments.foldlM t.follow l = some next) :
    segments.foldlM t'.follow l = some next := by
  induction segments generalizing l with
  | nil => exact follows
  | cons s rest ih =>
    rw [List.foldlM_cons, Option.bind_eq_bind, Option.bind_eq_some_iff] at follows ⊢
    obtain ⟨middle, first, later⟩ := follows
    exact ⟨middle, follow_grows grows first, ih later⟩

def isEntryName (s : List Char) : Bool :=
  !Path.isSilent s && !Path.isUpward s && isLegalName s

theorem isEntryName_iff {s : List Char} : isEntryName s = true ↔
    Path.isSilent s = false ∧ Path.isUpward s = false ∧ isLegalName s = true := by
  simp [isEntryName, and_assoc]

theorem follow_entry {t : Tree} {l : Location} {s : List Char} (name : isEntryName s = true)
    (folder : t.isFolderAt l = true)
    (there : (t.node? (l ++ [String.ofList s])).isSome = true) :
    t.follow l s = some (l ++ [String.ofList s]) := by
  obtain ⟨silent, upward, legal⟩ := isEntryName_iff.1 name
  simp [follow, folder, silent, upward, legal, there]

theorem makeFolders_made {t t' : Tree} {l loc : Location} {segments : List (List Char)}
    (made : t.makeFolders l segments = (t', some loc)) :
    Grows t t' ∧ segments.foldlM t'.follow l = some loc := by
  induction segments generalizing t l with
  | nil =>
    cases made
    exact ⟨grows_refl _, rfl⟩
  | cons s rest ih =>
    rw [makeFolders] at made
    rw [List.foldlM_cons, Option.bind_eq_bind, Option.bind_eq_some_iff]
    split at made
    · next middle follows =>
      obtain ⟨grows, later⟩ := ih made
      exact ⟨grows, middle, follow_grows grows follows, later⟩
    · dsimp only at made
      split at made
      · cases made
      · next creatable =>
        simp only [Bool.or_eq_true, not_or, Bool.not_eq_true, Bool.not_eq_false'] at creatable
        obtain ⟨⟨⟨⟨silent, upward⟩, legal⟩, absent⟩, folder⟩ := creatable
        obtain ⟨grows, later⟩ := ih made
        have empty : t.isFolderAt (l ++ [String.ofList s]) = false := by
          have none : t.node? (l ++ [String.ofList s]) = none := by simpa using absent
          simp [isFolderAt, none]
        have put := grows_put (.folder []) empty
        have new := node?_put (.folder []) (String.ofList s) folder
        have name : isEntryName s = true := isEntryName_iff.2 ⟨silent, upward, legal⟩
        exact ⟨grows_trans put grows, _, follow_grows grows
          (follow_entry name (grows_isFolderAt put folder) (by simp [new])), later⟩

theorem makeFolders_there {t : Tree} {l loc : Location} {segments : List (List Char)}
    (follows : segments.foldlM t.follow l = some loc) :
    t.makeFolders l segments = (t, some loc) := by
  induction segments generalizing l with
  | nil =>
    cases follows
    rfl
  | cons s rest ih =>
    rw [List.foldlM_cons, Option.bind_eq_bind, Option.bind_eq_some_iff] at follows
    obtain ⟨middle, first, later⟩ := follows
    simp only [makeFolders, first, ih later]

theorem target?_iff {t : Tree} {p : Path} {loc : Location} :
    t.target? p = some loc ↔ ∃ name before l, p.segments = before ++ [name] ∧
      isSpeakable p = true ∧ isEntryName name = true ∧
      before.foldlM t.follow (t.origin p) = some l ∧ loc = l ++ [String.ofList name] ∧
      t.isFolderAt l = true ∧ t.isFolderAt loc = false := by
  rw [target?]
  constructor
  · intro found
    split at found
    · contradiction
    · next name before reversed =>
      split at found
      · contradiction
      · next writable =>
        simp only [Bool.or_eq_true, not_or, Bool.not_eq_true, Bool.not_eq_false'] at writable
        obtain ⟨⟨⟨speakable, silent⟩, upward⟩, legal⟩ := writable
        split at found
        · next l follows =>
          dsimp only at found
          split at found
          · contradiction
          · next free =>
            simp only [Bool.or_eq_true, not_or, Bool.not_eq_true, Bool.not_eq_false'] at free
            cases found
            refine ⟨name, before.reverse, l, ?_, speakable,
              isEntryName_iff.2 ⟨silent, upward, legal⟩, follows, rfl, free.1, free.2⟩
            rw [← List.reverse_reverse p.segments, reversed, List.reverse_cons]
        · contradiction
  · rintro ⟨name, before, l, split, speakable, entry, follows, rfl, folder, free⟩
    obtain ⟨silent, upward, legal⟩ := isEntryName_iff.1 entry
    simp [split, speakable, silent, upward, legal, follows, folder, free]

/-- A write that succeeds makes the folders, then puts the file where its path goes. -/
theorem write_iff {t t' : Tree} {p : Path} {s : String} :
    t.write p s = (t', true) ↔ isSpeakable (folderOf p) = true ∧ ∃ made l loc,
      t.makeFolders (t.origin (folderOf p)) (folderOf p).segments = (made, some l) ∧
      made.target? p = some loc ∧ t' = made.put loc (.file (.text s)) := by
  rw [write]
  constructor
  · intro written
    split at written
    · cases written
    · next speakable =>
      refine ⟨by simpa using speakable, ?_⟩
      split at written
      · cases written
      · next made l folders =>
        split at written
        · cases written
        · next loc target =>
          cases written
          exact ⟨made, l, loc, folders, target, rfl⟩
  · rintro ⟨speakable, made, l, loc, folders, target, rfl⟩
    simp [speakable, folders, target]

theorem written_grows {t t' : Tree} {p : Path} {s : String} (written : t.write p s = (t', true)) :
    ∃ made l loc, isSpeakable (folderOf p) = true ∧
      t.makeFolders (t.origin (folderOf p)) (folderOf p).segments = (made, some l) ∧
      made.target? p = some loc ∧ Grows made t' ∧ t'.node? loc = some (.file (.text s)) := by
  obtain ⟨speakable, made, l, loc, folders, target, rfl⟩ := write_iff.1 written
  obtain ⟨name, before, folder, _, _, _, _, rfl, inside, free⟩ := target?_iff.1 target
  exact ⟨made, l, _, speakable, folders, target, grows_put _ free, node?_put _ _ inside⟩

theorem origin_grows {t t' : Tree} (grows : Grows t t') (p : Path) : t'.origin p = t.origin p := by
  simp only [origin, grows.current]

theorem place?_target {t t' : Tree} {p : Path} {loc : Location} (target : t.target? p = some loc)
    (grows : Grows t t') (there : (t'.node? loc).isSome = true) : t'.place? p = some loc := by
  obtain ⟨name, before, folder, split, speakable, entry, follows, rfl, inside, _⟩ :=
    target?_iff.1 target
  rw [place?, if_pos speakable, split, List.foldlM_append, origin_grows grows]
  simp [followAll_grows grows follows, follow_entry entry (grows_isFolderAt grows inside) there]

theorem write_read {t t' : Tree} {p : Path} {s : String} (written : t.write p s = (t', true)) :
    t'.read? p = some s := by
  obtain ⟨made, l, loc, _, _, target, grows, file⟩ := written_grows written
  simp [read?, nodeAt?, place?_target target grows (by simp [file]), file]

theorem write_again {t t' : Tree} {p : Path} {s : String} (written : t.write p s = (t', true))
    (later : String) : ∃ t'', t'.write p later = (t'', true) := by
  obtain ⟨made, l, loc, speakable, folders, target, grows, file⟩ := written_grows written
  obtain ⟨growsFirst, follows⟩ := makeFolders_made folders
  obtain ⟨name, before, folder, split, speakableFile, entry, leads, rfl, inside, _⟩ :=
    target?_iff.1 target
  have all := grows_trans growsFirst grows
  have again := makeFolders_there (followAll_grows grows follows)
  rw [← origin_grows all] at again
  have target' : t'.target? p = some (folder ++ [String.ofList name]) := by
    refine target?_iff.2 ⟨name, before, folder, split, speakableFile, entry, ?_, rfl,
      grows_isFolderAt grows inside, by simp [isFolderAt, file, Node.isFolder]⟩
    rw [origin_grows grows]
    exact followAll_grows grows leads
  exact ⟨_, write_iff.2 ⟨speakable, t', l, _, again, target', rfl⟩⟩

theorem read_has {t : Tree} {p : Path} {s : String} (read : t.read? p = some s) :
    t.has p = true := by
  rw [read?] at read
  split at read
  · next found => simp [has, found]
  · contradiction

end Tree

end BladeForm
