import BladeForm.Proofs.Plan.Report

/-!
Where the fields of a model are read. A name stands for a path, with the extension of resource
files behind its last name if that has none, and it is looked up as a file of its own, as that path
and below the base. The lookup rewrites the name before it looks and takes folders for files, so it
misses a file without extension, and a folder that has the path's name ends it.
-/
namespace BladeForm

namespace Path

theorem relative_iff {p : Path} : p.isAbsolute = false ↔ p.text.toList.head? ≠ some '/' := by
  simp [isAbsolute]

theorem join_empty (q : Path) : empty.join q.text = q := by
  simp [join, empty]

theorem join_self_iff {p q : Path} (relative : q.isAbsolute = false) :
    p.join q.text = q ↔ p = empty := by
  constructor
  · intro same
    have length := congrArg (fun r => r.text.length) same
    simp only [join, relative_iff.1 relative, ↓reduceIte] at length
    have none : p.text.length = 0 := by
      split at length <;> simp only [String.length_append] at length <;> omega
    have text : p.text = "" := String.length_eq_zero_iff.1 none
    rw [empty, ← text]
  · rintro rfl
    exact join_empty q

theorem segments_ending {p : Path} {before : List (List Char)} {name : List Char}
    (split : p.segments = before ++ [name]) {ending : String} (free : '/' ∉ ending.toList) :
    segments ⟨p.text ++ ending⟩ = before ++ [name ++ ending.toList] := by
  have pieces : ∀ piece ∈ before ++ [name], ∀ x ∈ piece, isSeparator x = false := by
    rw [← split]
    exact fun piece => Text.mem_splitAtEach
  have text : p.text.toList = Text.joinWith ['/'] (before ++ [name]) := by
    rw [← split, segments, Text.joinWith_splitAtEach fun c _ => (isSeparator_iff c).1]
  rw [segments, String.toList_append, text, ← joinWith_ending]
  refine Text.splitAtEach_joinWith rfl (by simp) fun piece member x inside => ?_
  rcases List.mem_append.1 member with early | last
  · exact pieces piece (List.mem_append_left _ early) x inside
  · rw [List.mem_singleton.1 last, List.mem_append] at inside
    rcases inside with old | new
    · exact pieces name (by simp) x old
    · rw [← Bool.not_eq_true, isSeparator_iff]
      rintro rfl
      exact free new

end Path

namespace Resource

theorem ofFile_inj {t : Tree} {p q : Path} {languageFile : Option String}
    (same : ofFile t p languageFile = ofFile t q languageFile) : p = q := by
  cases first : ofFile t p languageFile with
  | ok r =>
    have second := same.symm.trans first
    obtain ⟨_, _, text⟩ := ofFile_ok.1 first
    obtain ⟨_, _, text'⟩ := ofFile_ok.1 second
    obtain ⟨_, _, _, rfl⟩ := ofText_ok.1 text
    obtain ⟨_, _, _, same⟩ := ofText_ok.1 text'
    exact congrArg Resource.path same
  | error e =>
    have second := same.symm.trans first
    rcases ofFile_error first with rfl | rfl | ⟨_, rfl⟩ | ⟨_, rfl⟩ <;>
      rcases ofFile_error second with same | same | ⟨_, same⟩ | ⟨_, same⟩ <;> cases same <;> rfl

section
variable {name : String}

theorem pathOf_extended (extended : (⟨name⟩ : Path).extension? ≠ none) : pathOf name = ⟨name⟩ := by
  simp [pathOf, Option.isNone_iff_eq_none, extended]

theorem pathOf_unnamed (unnamed : (⟨name⟩ : Path).fileName? = none) : pathOf name = ⟨name⟩ := by
  simp [pathOf, Path.extension?, Path.withExtension, unnamed]

theorem pathOf_bare (bare : (⟨name⟩ : Path).extension? = none) :
    pathOf name = (⟨name⟩ : Path).withExtension "json" := by
  simp [pathOf, bare]

theorem pathOf_appended (bare : (⟨name⟩ : Path).extension? = none)
    (named : (⟨name⟩ : Path).fileName? ≠ none) :
    Path.Appended ⟨name⟩ ".json" (pathOf name) := by
  obtain ⟨last, given⟩ := Option.ne_none_iff_exists'.1 named
  have plain : (Path.splitExtension last).2 = none := by simpa [Path.extension?, given] using bare
  rw [pathOf_bare bare]
  exact Path.withExtension_appended given plain "json"

theorem pathOf_file {t : Tree} (file : t.isFile ⟨name⟩ = true)
    (bare : (⟨name⟩ : Path).extension? = none) : ∃ before last,
      Path.isSilent last = false ∧ Path.isUpward last = false ∧
      (⟨name⟩ : Path).segments = before ++ [last] ∧ pathOf name = ⟨name ++ ".json"⟩ ∧
      (pathOf name).segments = before ++ [last ++ ".json".toList] := by
  obtain ⟨before, last, split, silent, upward⟩ := Tree.file_named file
  have plain : (Path.splitExtension last).2 = none := by
    simpa [Path.extension?, Path.fileName?_named split silent upward] using bare
  have text : pathOf name = ⟨name ++ ".json"⟩ := by
    rw [pathOf_bare bare, Path.withExtension_named split silent upward plain]
    simp [String.append_assoc]
  refine ⟨before, last, silent, upward, split, text, ?_⟩
  rw [text]
  exact Path.segments_ending split (by decide)

end

section
variable {t : Tree} {name : String} {base : Path}

/-- The file that a name is for: the one of the very name, else the one of its path, and else the
    one below the base. -/
def meant (t : Tree) (name : String) (base : Path) : Path :=
  if t.isFile ⟨name⟩ then ⟨name⟩
  else if t.isFile (pathOf name) || (pathOf name).isAbsolute then pathOf name
  else base.join (pathOf name).text

/-- Nothing hides the file that a name is for: a file of the very name has an extension, and no
    folder has the name of the path, unless that is looked up in its place anyway. -/
structure Unhidden (t : Tree) (name : String) (base : Path) : Prop where
  extended : t.isFile ⟨name⟩ = true → (⟨name⟩ : Path).extension? ≠ none
  clear : (pathOf name).isAbsolute = false → t.has (pathOf name) = true →
    t.isFile (pathOf name) = false → base = .empty

theorem locate_cases : locate t name base = pathOf name ∧
      ((pathOf name).isAbsolute = true ∨ t.has (pathOf name) = true) ∨
    locate t name base = base.join (pathOf name).text ∧
      (pathOf name).isAbsolute = false ∧ t.has (pathOf name) = false := by
  simp only [locate, Bool.or_eq_true]
  split
  · next found => exact Or.inl ⟨rfl, found⟩
  · next missing =>
    rw [not_or, Bool.not_eq_true, Bool.not_eq_true] at missing
    exact Or.inr ⟨rfl, missing⟩

theorem locate_ends {before : List (List Char)} {last : List Char}
    (split : (pathOf name).segments = before ++ [last]) :
    ∃ front, (locate t name base).segments = front ++ [last] := by
  rcases @locate_cases t name base with ⟨here, _⟩ | ⟨below, relative, _⟩
  · exact ⟨before, by rw [here, split]⟩
  · obtain ⟨front, joined, _⟩ := Path.join_relative base (Path.relative_iff.1 relative)
    refine ⟨front ++ before, ?_⟩
    rw [below, joined, List.append_assoc, ← split]

theorem locate_elsewhere (file : t.isFile ⟨name⟩ = true)
    (bare : (⟨name⟩ : Path).extension? = none) :
    t.place? (locate t name base) ≠ t.place? ⟨name⟩ := by
  obtain ⟨before, last, silent, upward, split, _, ends⟩ := pathOf_file file bare
  obtain ⟨front, ends⟩ := @locate_ends t name base _ _ ends
  have other : ∀ {k : List Char}, k.length < 5 → last ++ ".json".toList ≠ k := by
    rintro k short rfl
    rw [List.length_append] at short
    exact absurd short (by simp)
  have named : Path.isSilent (last ++ ".json".toList) = false ∧
      Path.isUpward (last ++ ".json".toList) = false := by
    constructor
    · simpa only [Path.isSilent, Bool.or_eq_false_iff, decide_eq_false_iff_not]
        using ⟨other (by decide), other (by decide)⟩
    · simpa only [Path.isUpward, decide_eq_false_iff_not] using other (by decide)
  have differ : last ++ ".json".toList ≠ last := by simp
  obtain ⟨loc, c, place, _⟩ := Tree.isFile_iff.1 file
  intro same
  rw [place] at same
  exact Tree.place?_apart ends split differ named ⟨silent, upward⟩ same place rfl

theorem locate_own_iff (file : t.isFile ⟨name⟩ = true) :
    locate t name base = ⟨name⟩ ↔ (⟨name⟩ : Path).extension? ≠ none := by
  constructor
  · intro own bare
    exact locate_elsewhere file bare (congrArg t.place? own)
  · intro extended
    simp [locate, pathOf_extended extended, Tree.isFile_has file]

theorem locate_path_iff : locate t name base
      = (if t.isFile (pathOf name) || (pathOf name).isAbsolute then pathOf name
        else base.join (pathOf name).text) ↔
    ((pathOf name).isAbsolute = false → t.has (pathOf name) = true →
      t.isFile (pathOf name) = false → base = .empty) := by
  rcases @locate_cases t name base with ⟨here, found⟩ | ⟨below, relative, missing⟩
  · rw [here]
    by_cases direct : t.isFile (pathOf name) = true ∨ (pathOf name).isAbsolute = true
    · refine iff_of_true ?_ fun relative _ folder => ?_
      · rw [if_pos (Bool.or_eq_true _ _ ▸ direct)]
      · simp [relative, folder] at direct
    · rw [not_or, Bool.not_eq_true, Bool.not_eq_true] at direct
      obtain ⟨folder, relative⟩ := direct
      have there : t.has (pathOf name) = true := by simpa [relative] using found
      rw [if_neg (by simp [folder, relative]), eq_comm, Path.join_self_iff relative]
      exact ⟨fun empty _ _ _ => empty, fun clear => clear relative there folder⟩
  · have noFile : t.isFile (pathOf name) = false := by
      rw [← Bool.not_eq_true]
      intro found
      rw [Tree.isFile_has found] at missing
      contradiction
    refine iff_of_true ?_ fun _ there => ?_
    · rw [below, if_neg (by simp [noFile, relative])]
    · rw [missing] at there
      contradiction

theorem locate_meant_iff : locate t name base = meant t name base ↔ Unhidden t name base := by
  by_cases file : t.isFile ⟨name⟩ = true
  · rw [meant, if_pos file, locate_own_iff file]
    constructor
    · intro extended
      refine ⟨fun _ => extended, fun _ _ folder => ?_⟩
      rw [pathOf_extended extended, file] at folder
      contradiction
    · intro unhidden
      exact unhidden.extended file
  · rw [meant, if_neg file, locate_path_iff]
    exact ⟨fun clear => ⟨fun found => absurd found file, clear⟩, fun given => given.clear⟩

theorem ofFile_present {p : Path} (file : t.isFile p = true) (languageFile : Option String) :
    (∃ text, t.read? p = some text ∧ ofFile t p languageFile = ofText p languageFile text) ∨
      t.read? p = none ∧ ofFile t p languageFile = .error (.unreadable .plain p) := by
  simp only [ofFile, file, Bool.not_true, Bool.false_eq_true, ↓reduceIte]
  cases t.read? p with
  | none => exact Or.inr ⟨rfl, rfl⟩
  | some text => exact Or.inl ⟨text, rfl, rfl⟩

/-- A name is its own path if it has an extension or ends in no name; else the extension is put
    behind its last name. What is read is what the name is for exactly if nothing hides that, and
    then a file there is found. A file without extension is not even looked up, and a folder of the
    path's name is reported as missing, whatever stands below the base. -/
theorem load_reads_meant_iff (t : Tree) (name : String) (base : Path)
    (languageFile : Option String) :
    ((⟨name⟩ : Path).extension? ≠ none ∨ (⟨name⟩ : Path).fileName? = none →
      pathOf name = ⟨name⟩) ∧
    ((⟨name⟩ : Path).extension? = none → (⟨name⟩ : Path).fileName? ≠ none →
      Path.Appended ⟨name⟩ ".json" (pathOf name)) ∧
    (load t name base languageFile = ofFile t (meant t name base) languageFile ↔
      Unhidden t name base) ∧
    (Unhidden t name base → t.isFile (meant t name base) = true →
      (∃ text, t.read? (meant t name base) = some text ∧
        load t name base languageFile = ofText (meant t name base) languageFile text) ∨
      t.read? (meant t name base) = none ∧
        load t name base languageFile = .error (.unreadable .plain (meant t name base))) ∧
    (t.isFile ⟨name⟩ = true → (⟨name⟩ : Path).extension? = none →
      pathOf name = ⟨name ++ ".json"⟩ ∧ t.place? (locate t name base) ≠ t.place? ⟨name⟩) ∧
    (t.has (pathOf name) = true → t.isFile (pathOf name) = false →
      load t name base languageFile = .error (.resourceNotFound (pathOf name))) := by
  have reads : load t name base languageFile = ofFile t (meant t name base) languageFile ↔
      Unhidden t name base := by
    rw [← locate_meant_iff, load]
    exact ⟨ofFile_inj, fun same => by rw [same]⟩
  refine ⟨?_, pathOf_appended, reads, ?_, ?_, ?_⟩
  · rintro (extended | unnamed)
    · exact pathOf_extended extended
    · exact pathOf_unnamed unnamed
  · intro unhidden file
    rw [reads.2 unhidden]
    exact ofFile_present file languageFile
  · intro file bare
    obtain ⟨_, _, _, _, _, text, _⟩ := pathOf_file file bare
    exact ⟨text, locate_elsewhere file bare⟩
  · intro there folder
    have here : locate t name base = pathOf name := by simp [locate, there]
    simp [load, here, ofFile, folder]

def titleText : String := "[\x7b\"name\": \"title\"\x7d]"

def baseTree : Tree := ⟨[("base", .folder [("post.json", .file (.text titleText))])], []⟩

theorem base_file_found : Unhidden baseTree "post" ⟨"base"⟩ ∧
    baseTree.isFile (meant baseTree "post" ⟨"base"⟩) = true ∧
    load baseTree "post" ⟨"base"⟩ none = ofText ⟨"base/post.json"⟩ none titleText ∧
    Path.Appended ⟨"post"⟩ ".json" ⟨"post.json"⟩ := by
  have unhidden : Unhidden baseTree "post" ⟨"base"⟩ := locate_meant_iff.1 (by decide)
  have file : baseTree.isFile (meant baseTree "post" ⟨"base"⟩) = true := by decide
  have meets := load_reads_meant_iff baseTree "post" ⟨"base"⟩ none
  have path : pathOf "post" = ⟨"post.json"⟩ := by decide
  have below : meant baseTree "post" ⟨"base"⟩ = ⟨"base/post.json"⟩ := by decide
  have text : baseTree.read? ⟨"base/post.json"⟩ = some titleText := by decide
  refine ⟨unhidden, file, ?_, path ▸ meets.2.1 (by decide) (by decide)⟩
  rcases meets.2.2.2.1 unhidden file with ⟨found, read, loaded⟩ | ⟨unread, _⟩
  · rw [below] at read loaded
    rw [text] at read
    cases read
    exact loaded
  · rw [below, text] at unread
    contradiction

def bareTree : Tree := ⟨[("post", .file (.text titleText))], []⟩

def shadowedTree : Tree :=
  ⟨[("post.json", .folder [("x", .file (.text ""))]),
    ("base", .folder [("post.json", .file (.text titleText))])], []⟩

theorem files_passed_over :
    meant bareTree "post" ⟨"base"⟩ = ⟨"post"⟩ ∧ bareTree.isFile ⟨"post"⟩ = true ∧
    load bareTree "post" ⟨"base"⟩ none = .error (.resourceNotFound ⟨"base/post.json"⟩) ∧
    meant shadowedTree "post" ⟨"base"⟩ = ⟨"base/post.json"⟩ ∧
    shadowedTree.isFile ⟨"base/post.json"⟩ = true ∧
    load shadowedTree "post" ⟨"base"⟩ none = .error (.resourceNotFound ⟨"post.json"⟩) ∧
    ¬ ∀ (t : Tree) (name : String) (base : Path),
      load t name base none = ofFile t (meant t name base) none := by
  have shadowed : load shadowedTree "post" ⟨"base"⟩ none
      = .error (.resourceNotFound ⟨"post.json"⟩) := rfl
  refine ⟨by decide, by decide, rfl, by decide, by decide, shadowed, fun all => ?_⟩
  have hidden : locate bareTree "post" ⟨"base"⟩ ≠ meant bareTree "post" ⟨"base"⟩ := by decide
  exact hidden (ofFile_inj (all bareTree "post" ⟨"base"⟩))

end

end Resource

end BladeForm
