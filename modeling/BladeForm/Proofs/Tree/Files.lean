import BladeForm.Proofs.Path
import BladeForm.Proofs.Tree

/-!
What stands where in a tree, and what a write changes of it. A write that fails leaves new
folders at most; one that succeeds also puts the file where its path leads. A file that is there
can always be written again.
-/
namespace BladeForm

namespace Node

def content? : Node → Option Content
  | .file c => some c
  | .folder _ => none

def Bare (n : Node) : Prop := ∀ name, n.child? name = none

theorem bare_file (c : Content) : Bare (.file c) := fun _ => rfl

theorem bare_folder : Bare (.folder []) := fun _ => rfl

theorem descend?_bare {n : Node} (bare : n.Bare) (name : String) (rest : Location) :
    n.descend? (name :: rest) = none := by
  rw [descend?, bare name]
  rfl

theorem bare_notFolder {n : Node} (noFolder : n.isFolder = false) : n.Bare := by
  cases n with
  | file c => exact bare_file c
  | folder es => contradiction

theorem descend?_append (n : Node) (first rest : Location) :
    n.descend? (first ++ rest) = (n.descend? first).bind fun m => m.descend? rest := by
  induction first generalizing n with
  | nil => rfl
  | cons name first ih =>
    rw [List.cons_append, descend?, descend?]
    cases n.child? name with
    | none => rfl
    | some c => exact ih c

theorem content_put {n new : Node} {loc other : Location} (bare : new.Bare)
    (replaced : ∀ old, n.descend? loc = some old → old.isFolder = false) (apart : other ≠ loc) :
    ((n.put new loc).descend? other).map content? = (n.descend? other).map content? := by
  induction loc generalizing n other with
  | nil =>
    cases other with
    | nil => contradiction
    | cons k ks =>
      rw [put, descend?_bare bare, descend?_bare (bare_notFolder (replaced n rfl))]
  | cons name rest ih =>
    cases n with
    | file c => rfl
    | folder es =>
      cases found : es.lookup name with
      | some old =>
        rw [put_present new rest found]
        cases other with
        | nil => rfl
        | cons k ks =>
          rw [descend?_cons, descend?_cons, lookup_setEntry]
          by_cases same : k = name
          · subst k
            have below := @ih old ks
              (fun o inside => replaced o (by rw [descend?_cons, found]; exact inside))
              (fun equal => apart (by rw [equal]))
            simpa [found] using below
          · simp [same]
      | none =>
        cases rest with
        | nil =>
          rw [put_absent new found]
          cases other with
          | nil => rfl
          | cons k ks =>
            rw [descend?_cons, descend?_cons, lookup_setEntry]
            by_cases same : k = name
            · subst k
              cases ks with
              | nil => exact absurd rfl apart
              | cons d ds => simp [found, descend?_bare bare]
            · simp [same]
        | cons r rs => simp [put, found]

end Node

namespace Tree

/-- What stands at a location: nothing, a folder, or a file with its content. -/
def entryAt? (t : Tree) (loc : Location) : Option (Option Content) :=
  (t.node? loc).map Node.content?

/-- What stood at a location still does; only a folder may be new there. -/
def KeptAt (t t' : Tree) (loc : Location) : Prop :=
  t'.entryAt? loc = t.entryAt? loc ∨ t.entryAt? loc = none ∧ t'.entryAt? loc = some none

theorem kept_refl (t : Tree) (loc : Location) : KeptAt t t loc := Or.inl rfl

theorem kept_trans {a b c : Tree} {loc : Location} (first : KeptAt a b loc)
    (second : KeptAt b c loc) : KeptAt a c loc := by
  rcases first with same | ⟨absent, folder⟩
  · rcases second with still | ⟨none, made⟩
    · exact Or.inl (still.trans same)
    · exact Or.inr ⟨same ▸ none, made⟩
  · rcases second with still | ⟨none, _⟩
    · exact Or.inr ⟨absent, still.trans folder⟩
    · rw [folder] at none
      contradiction

theorem entryAt?_file {t : Tree} {loc : Location} {c : Content} :
    t.entryAt? loc = some (some c) ↔ t.node? loc = some (.file c) := by
  rw [entryAt?, Option.map_eq_some_iff]
  constructor
  · rintro ⟨n, there, content⟩
    cases n with
    | file d =>
      cases content
      exact there
    | folder es => cases content
  · intro there
    exact ⟨_, there, rfl⟩

theorem isFolderAt_entry {t : Tree} {loc : Location} :
    t.isFolderAt loc = true ↔ t.entryAt? loc = some none := by
  rw [isFolderAt, entryAt?]
  cases t.node? loc with
  | none => simp
  | some n => cases n <;> simp [Node.isFolder, Node.content?]

theorem kept_file {t t' : Tree} {loc : Location} (kept : KeptAt t t' loc) (c : Content) :
    t'.entryAt? loc = some (some c) ↔ t.entryAt? loc = some (some c) := by
  rcases kept with same | ⟨absent, folder⟩
  · rw [same]
  · simp [absent, folder]

theorem entryAt?_put {t : Tree} {loc other : Location} {n : Node} (bare : n.Bare)
    (replaced : t.isFolderAt loc = false) (apart : other ≠ loc) :
    (t.put loc n).entryAt? other = t.entryAt? other := by
  have noFolder : ∀ old, t.root.descend? loc = some old → old.isFolder = false := by
    intro old found
    simpa [isFolderAt, node?, found] using replaced
  cases loc with
  | nil => exact absurd (noFolder t.root rfl) (by simp [root, Node.isFolder])
  | cons name rest =>
    rw [entryAt?, node?, root_put]
    exact Node.content_put bare noFolder apart

/-- Making folders adds folders where beginnings of the segments lead, and nothing else, whether
    or not all could be made. -/
theorem makeFolders_adds {t t' : Tree} {l : Location} {segments : List (List Char)}
    {reached : Option Location} (made : t.makeFolders l segments = (t', reached)) :
    Grows t t' ∧ ∀ loc, t'.entryAt? loc = t.entryAt? loc ∨
      t.entryAt? loc = none ∧ t'.entryAt? loc = some none ∧
        ∃ done, done <+: segments ∧ done.foldlM t'.follow l = some loc := by
  induction segments generalizing t l with
  | nil =>
    cases made
    exact ⟨grows_refl _, fun _ => Or.inl rfl⟩
  | cons s rest ih =>
    rw [makeFolders] at made
    have further : ∀ {next loc : Location} {done : List (List Char)},
        t'.follow l s = some next → done <+: rest → done.foldlM t'.follow next = some loc →
        ∃ done, done <+: s :: rest ∧ done.foldlM t'.follow l = some loc := by
      intro next loc done first begins later
      refine ⟨s :: done, (List.prefix_cons_inj s).2 begins, ?_⟩
      rw [List.foldlM_cons, Option.bind_eq_bind, Option.bind_eq_some_iff]
      exact ⟨next, first, later⟩
    split at made
    · next next follows =>
      obtain ⟨grows, later⟩ := ih made
      refine ⟨grows, fun loc => (later loc).imp_right ?_⟩
      rintro ⟨absent, folder, done, begins, leads⟩
      exact ⟨absent, folder, further (follow_grows grows follows) begins leads⟩
    · dsimp only at made
      split at made
      · cases made
        exact ⟨grows_refl _, fun _ => Or.inl rfl⟩
      · next creatable =>
        simp only [Bool.or_eq_true, not_or, Bool.not_eq_true, Bool.not_eq_false'] at creatable
        obtain ⟨⟨⟨⟨silent, upward⟩, legal⟩, absent⟩, folder⟩ := creatable
        have free : t.node? (l ++ [String.ofList s]) = none := by simpa using absent
        have empty : t.isFolderAt (l ++ [String.ofList s]) = false := by simp [isFolderAt, free]
        have put := grows_put (.folder []) empty
        have new := node?_put (.folder []) (String.ofList s) folder
        obtain ⟨grows, later⟩ := ih made
        have leads : t'.follow l s = some (l ++ [String.ofList s]) :=
          follow_grows grows (follow_entry (isEntryName_iff.2 ⟨silent, upward, legal⟩)
            (grows_isFolderAt put folder) (by simp [new]))
        refine ⟨grows_trans put grows, fun loc => ?_⟩
        by_cases here : loc = l ++ [String.ofList s]
        · subst loc
          have made : (t.put (l ++ [String.ofList s]) (.folder [])).entryAt?
              (l ++ [String.ofList s]) = some none := by simp [entryAt?, new, Node.content?]
          refine Or.inr ⟨by simp [entryAt?, free], ?_, further leads List.nil_prefix rfl⟩
          rcases later (l ++ [String.ofList s]) with same | ⟨_, still, _⟩
          · exact same.trans made
          · exact still
        · rw [← entryAt?_put Node.bare_folder empty here]
          refine (later loc).imp_right ?_
          rintro ⟨absent, folder, done, begins, follows⟩
          exact ⟨absent, folder, further leads begins follows⟩

theorem makeFolders_kept {t t' : Tree} {l : Location} {segments : List (List Char)}
    {reached : Option Location} (made : t.makeFolders l segments = (t', reached)) :
    Grows t t' ∧ ∀ loc, KeptAt t t' loc := by
  obtain ⟨grows, later⟩ := makeFolders_adds made
  exact ⟨grows, fun loc => (later loc).imp_right fun ⟨absent, folder, _⟩ => ⟨absent, folder⟩⟩

theorem write_failed {t t' : Tree} {p : Path} {s : String} (failed : t.write p s = (t', false)) :
    Grows t t' ∧ ∀ loc, KeptAt t t' loc := by
  rw [write] at failed
  split at failed
  · cases failed
    exact ⟨grows_refl _, kept_refl _⟩
  · split at failed
    · next folders =>
      cases failed
      exact makeFolders_kept folders
    · next folders =>
      split at failed
      · cases failed
        exact makeFolders_kept folders
      · cases failed

theorem write_puts {t t' : Tree} {p : Path} {s : String} (written : t.write p s = (t', true)) :
    Grows t t' ∧ ∃ loc, t'.place? p = some loc ∧ t'.entryAt? loc = some (some (.text s)) ∧
      t.isFolderAt loc = false ∧ ∀ other, other ≠ loc → KeptAt t t' other := by
  obtain ⟨_, made, l, loc, folders, target, rfl⟩ := write_iff.1 written
  obtain ⟨growsFirst, kept⟩ := makeFolders_kept folders
  obtain ⟨name, before, folder, split, speakable, entry, follows, rfl, inside, free⟩ :=
    target?_iff.1 target
  have file := node?_put (.file (.text s)) (String.ofList name) inside
  have grows := grows_put (.file (.text s)) free
  refine ⟨grows_trans growsFirst grows, folder ++ [String.ofList name], ?_, ?_, ?_, ?_⟩
  · exact place?_target target grows (by simp [file])
  · exact entryAt?_file.2 file
  · rw [← Bool.not_eq_true]
    intro before
    rw [grows_isFolderAt growsFirst before] at free
    contradiction
  · intro other apart
    exact kept_trans (kept other) (Or.inl (entryAt?_put (Node.bare_file _) free apart))

theorem place?_grows {t t' : Tree} (grows : Grows t t') {p : Path} {loc : Location}
    (place : t.place? p = some loc) : t'.place? p = some loc := by
  rw [place?] at place ⊢
  split at place
  · next speakable =>
    rw [if_pos speakable, origin_grows grows]
    exact followAll_grows grows place
  · contradiction

theorem has_iff {t : Tree} {p : Path} :
    t.has p = true ↔ ∃ loc, t.place? p = some loc ∧ (t.node? loc).isSome = true := by
  rw [has, nodeAt?]
  cases t.place? p <;> simp

theorem has_file {t : Tree} {p : Path} {loc : Location} {c : Content}
    (place : t.place? p = some loc) (file : t.entryAt? loc = some (some c)) : t.has p = true :=
  has_iff.2 ⟨loc, place, by rw [entryAt?_file.1 file]; rfl⟩

theorem isFile_iff {t : Tree} {p : Path} : t.isFile p = true ↔
    ∃ loc c, t.place? p = some loc ∧ t.entryAt? loc = some (some c) := by
  simp only [isFile, nodeAt?, Option.any_eq_true, Option.bind_eq_some_iff, entryAt?_file]
  constructor
  · rintro ⟨n, ⟨loc, place, there⟩, file⟩
    cases n with
    | file c => exact ⟨loc, c, place, there⟩
    | folder es => contradiction
  · rintro ⟨loc, c, place, there⟩
    exact ⟨_, ⟨loc, place, there⟩, rfl⟩

theorem isFile_has {t : Tree} {p : Path} (file : t.isFile p = true) : t.has p = true := by
  obtain ⟨loc, c, place, content⟩ := isFile_iff.1 file
  exact has_file place content

theorem has_grows {t t' : Tree} (grows : Grows t t') {p : Path} (there : t.has p = true) :
    t'.has p = true := by
  obtain ⟨loc, place, found⟩ := has_iff.1 there
  exact has_iff.2 ⟨loc, place?_grows grows place, grows_node_isSome grows found⟩

theorem read?_iff {t : Tree} {p : Path} {s : String} : t.read? p = some s ↔
    ∃ loc, t.place? p = some loc ∧ t.entryAt? loc = some (some (.text s)) := by
  have file : t.read? p = some s ↔ t.nodeAt? p = some (.file (.text s)) := by
    rw [read?]
    split
    · next text found => simp [found]
    · next other => simpa using other s
  rw [file, nodeAt?, Option.bind_eq_some_iff]
  simp only [entryAt?_file]

theorem read?_isFile {t : Tree} {p : Path} {s : String} (read : t.read? p = some s) :
    t.isFile p = true := by
  obtain ⟨loc, place, file⟩ := read?_iff.1 read
  exact isFile_iff.2 ⟨loc, _, place, file⟩

theorem isFolderAt_init {t : Tree} {loc : Location} (there : t.isFolderAt loc = true) :
    t.isFolderAt loc.dropLast = true := by
  rcases List.eq_nil_or_concat loc with rfl | ⟨before, name, rfl⟩
  · exact there
  · rw [List.concat_eq_append] at there ⊢
    obtain ⟨entries, found⟩ := isFolderAt_iff.1 there
    rw [List.dropLast_concat]
    rw [node?, Node.descend?_append, Option.bind_eq_some_iff] at found
    obtain ⟨parent, above, below⟩ := found
    cases parent with
    | file c => cases below
    | folder es => exact isFolderAt_iff.2 ⟨es, above⟩

theorem follow_cases {t : Tree} {l next : Location} {s : List Char}
    (follows : t.follow l s = some next) : t.isFolderAt l = true ∧
      (Path.isSilent s = true ∧ next = l ∨ Path.isUpward s = true ∧ next = l.dropLast ∨
        isEntryName s = true ∧ next = l ++ [String.ofList s] ∧ (t.node? next).isSome = true) := by
  simp only [follow] at follows
  split_ifs at follows with noFolder silent upward illegal there
  · exact ⟨by simpa using noFolder, Or.inl ⟨silent, (Option.some.inj follows).symm⟩⟩
  · exact ⟨by simpa using noFolder, Or.inr (Or.inl ⟨upward, (Option.some.inj follows).symm⟩)⟩
  · cases follows
    refine ⟨by simpa using noFolder, Or.inr (Or.inr ⟨?_, rfl, there⟩)⟩
    exact isEntryName_iff.2 ⟨by simpa using silent, by simpa using upward, by simpa using illegal⟩

theorem followAll_from {t : Tree} {l next : Location} {segments : List (List Char)}
    (follows : segments.foldlM t.follow l = some next) (folder : t.isFolderAt next = true) :
    t.isFolderAt l = true := by
  cases segments with
  | nil =>
    cases follows
    exact folder
  | cons s rest =>
    rw [List.foldlM_cons, Option.bind_eq_bind, Option.bind_eq_some_iff] at follows
    obtain ⟨_, first, _⟩ := follows
    exact (follow_cases first).1

theorem followAll_steps {t : Tree} {l next : Location} {segments : List (List Char)}
    (folder : t.isFolderAt next = true) : segments.foldlM t.follow l = some next ↔
      (Path.steps segments).foldlM t.follow l = some next := by
  induction segments generalizing l with
  | nil => rfl
  | cons s rest ih =>
    have skip : Path.isSilent s = true → t.isFolderAt l = true → t.follow l s = some l := by
      intro silent inside
      simp [follow, inside, silent]
    cases silent : Path.isSilent s with
    | true =>
      have steps : Path.steps (s :: rest) = Path.steps rest := by simp [Path.steps, silent]
      rw [steps, ← ih, List.foldlM_cons, Option.bind_eq_bind, Option.bind_eq_some_iff]
      constructor
      · rintro ⟨middle, first, later⟩
        rw [skip silent (follow_cases first).1] at first
        cases first
        exact later
      · intro later
        exact ⟨l, skip silent (followAll_from later folder), later⟩
    | false =>
      have steps : Path.steps (s :: rest) = s :: Path.steps rest := by simp [Path.steps, silent]
      simp only [steps, List.foldlM_cons, Option.bind_eq_bind, Option.bind_eq_some_iff, ih]

theorem place?_named {t : Tree} {p : Path} {loc : Location} {before : List (List Char)}
    {name : List Char} (split : p.segments = before ++ [name])
    (named : Path.isSilent name = false) (downward : Path.isUpward name = false)
    (place : t.place? p = some loc) : ∃ folder, loc = folder ++ [String.ofList name] := by
  rw [place?] at place
  split at place
  · rw [split, List.foldlM_append, Option.bind_eq_bind, Option.bind_eq_some_iff] at place
    obtain ⟨folder, _, last⟩ := place
    rw [List.foldlM_cons, Option.bind_eq_bind, Option.bind_eq_some_iff] at last
    obtain ⟨next, follows, same⟩ := last
    cases same
    rcases (follow_cases follows).2 with ⟨silent, _⟩ | ⟨upward, _⟩ | ⟨_, rfl, _⟩
    · simp [silent] at named
    · simp [upward] at downward
    · exact ⟨folder, rfl⟩
  · contradiction

/-- Paths that end in different names lead to different places. -/
theorem place?_apart {t : Tree} {p q : Path} {first second : Location}
    {before front : List (List Char)} {name other : List Char}
    (split : p.segments = before ++ [name]) (split' : q.segments = front ++ [other]) (differ : name ≠ other)
    (named : Path.isSilent name = false ∧ Path.isUpward name = false)
    (named' : Path.isSilent other = false ∧ Path.isUpward other = false)
    (place : t.place? p = some first) (place' : t.place? q = some second) : first ≠ second := by
  obtain ⟨folder, ends⟩ := place?_named split named.1 named.2 place
  obtain ⟨folder', ends'⟩ := place?_named split' named'.1 named'.2 place'
  rintro rfl
  rw [ends] at ends'
  have same := (List.cons.inj (List.append_inj' ends' rfl).2).1
  exact differ (by simpa using congrArg String.toList same)

theorem isSpeakable_begins {p q : Path} (begins : q.text.toList <+: p.text.toList)
    (ne : q.text ≠ "") (speakable : isSpeakable p = true) : isSpeakable q = true := by
  simp only [isSpeakable, Bool.and_eq_true, Bool.not_eq_true', decide_eq_true_eq,
    List.contains_eq_mem, decide_eq_false_iff_not] at speakable ⊢
  exact ⟨ne, fun member => speakable.2 (begins.subset member)⟩

theorem isAbsolute_begins {p q : Path} (begins : q.text.toList <+: p.text.toList)
    (ne : q.text ≠ "") : q.isAbsolute = p.isAbsolute := by
  obtain ⟨rest, same⟩ := begins
  have first : q.text.toList ≠ [] := fun none => ne (String.toList_inj.1 none)
  rw [Path.isAbsolute, Path.isAbsolute, ← same, List.head?_append_of_ne_nil _ first]

theorem folderOf_leads_iff {t : Tree} {p : Path} {l : Location} {before : List (List Char)}
    {name : List Char} (split : p.segments = before ++ [name])
    (named : Path.isSilent name = false) (folder : t.isFolderAt l = true) :
    (folderOf p).segments.foldlM t.follow (t.origin (folderOf p)) = some l ↔
      before.foldlM t.follow (t.origin p) = some l := by
  obtain ⟨q, parent, begins, relative, steps⟩ := Path.parent?_named split named
  rw [followAll_steps folder, @followAll_steps t (t.origin p) l before folder, ← steps, folderOf,
    parent]
  by_cases empty : q.text = ""
  · have none : Path.steps q.segments = [] := by
      rw [Path.segments, empty]
      rfl
    simp only [none, empty, ↓reduceIte, origin, relative empty]
    exact Iff.rfl
  · simp only [empty, ↓reduceIte, origin, isAbsolute_begins begins empty]

theorem folderOf_speakable {p : Path} {before : List (List Char)} {name : List Char}
    (split : p.segments = before ++ [name]) (named : Path.isSilent name = false)
    (speakable : isSpeakable p = true) : isSpeakable (folderOf p) = true := by
  obtain ⟨q, parent, begins, _⟩ := Path.parent?_named split named
  rw [folderOf, parent]
  by_cases empty : q.text = ""
  · simp only [empty, ↓reduceIte]
    decide
  · simp only [empty, ↓reduceIte]
    exact isSpeakable_begins begins empty speakable

theorem file_reached {t : Tree} {p : Path} {loc : Location} {c : Content}
    (place : t.place? p = some loc) (file : t.entryAt? loc = some (some c)) :
    ∃ before name l, p.segments = before ++ [name] ∧ isSpeakable p = true ∧
      isEntryName name = true ∧ before.foldlM t.follow (t.origin p) = some l ∧
      t.isFolderAt l = true ∧ t.isFolderAt loc = false ∧ loc = l ++ [String.ofList name] := by
  rw [entryAt?_file] at file
  have noFolder : t.isFolderAt loc = false := by simp [isFolderAt, file, Node.isFolder]
  rw [place?] at place
  split at place
  · next speakable =>
    rcases List.eq_nil_or_concat p.segments with none | ⟨before, name, split⟩
    · exact absurd none (Text.splitAtEach_ne_nil _ _)
    · rw [List.concat_eq_append] at split
      rw [split, List.foldlM_append, Option.bind_eq_bind, Option.bind_eq_some_iff] at place
      obtain ⟨l, follows, last⟩ := place
      rw [List.foldlM_cons, Option.bind_eq_bind, Option.bind_eq_some_iff] at last
      obtain ⟨next, leads, same⟩ := last
      cases same
      obtain ⟨folder, cases⟩ := follow_cases leads
      rcases cases with ⟨_, rfl⟩ | ⟨_, rfl⟩ | ⟨entry, rfl, _⟩
      · rw [folder] at noFolder
        contradiction
      · rw [isFolderAt_init folder] at noFolder
        contradiction
      · exact ⟨before, name, l, split, speakable, entry, follows, folder, noFolder, rfl⟩
  · contradiction

theorem file_named {t : Tree} {p : Path} (file : t.isFile p = true) :
    ∃ before name, p.segments = before ++ [name] ∧ Path.isSilent name = false ∧
      Path.isUpward name = false := by
  obtain ⟨loc, c, place, content⟩ := isFile_iff.1 file
  obtain ⟨before, name, l, split, _, entry, _⟩ := file_reached place content
  obtain ⟨silent, upward, _⟩ := isEntryName_iff.1 entry
  exact ⟨before, name, split, silent, upward⟩

theorem isFile_join {t : Tree} {p : Path} {q : String} (free : '/' ∉ q.toList)
    (file : t.isFile (p.join q) = true) : t.isFile p = false := by
  obtain ⟨loc, c, place, content⟩ := isFile_iff.1 file
  obtain ⟨before, name, l, split, _, _, leads, folder, _⟩ := file_reached place content
  obtain ⟨before', split', same⟩ := Path.join_steps p free
  rw [split] at split'
  obtain ⟨rfl, _⟩ := List.append_inj' split' rfl
  have relative : q.toList.head? ≠ some '/' := fun first => free (List.mem_of_head? first)
  rw [followAll_steps folder, same, ← followAll_steps folder, origin,
    Path.join_isAbsolute p relative] at leads
  rw [← Bool.not_eq_true, isFile_iff]
  rintro ⟨loc', c', place', content'⟩
  rw [place?] at place'
  split at place'
  · rw [origin, leads] at place'
    cases place'
    rw [isFolderAt_entry.1 folder] at content'
    cases content'
  · cases place'

theorem write_present {t : Tree} {p : Path} {loc : Location} {c : Content}
    (place : t.place? p = some loc) (file : t.entryAt? loc = some (some c)) (s : String) :
    t.write p s = (t.put loc (.file (.text s)), true) := by
  obtain ⟨before, name, l, split, speakable, entry, follows, folder, noFolder, rfl⟩ :=
    file_reached place file
  obtain ⟨silent, _, _⟩ := isEntryName_iff.1 entry
  have folders := (folderOf_leads_iff split silent folder).2 follows
  exact write_iff.2 ⟨folderOf_speakable split silent speakable, t, l, _, makeFolders_there folders,
    target?_iff.2 ⟨name, before, l, split, speakable, entry, follows, rfl, folder, noFolder⟩, rfl⟩

end Tree

end BladeForm
