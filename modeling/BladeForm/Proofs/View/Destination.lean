import BladeForm.Proofs.Plan.Creation

/-!
Where a form view can go. The names that options and model add to the views path are plain ones:
none is empty, none leads upward and none holds a slash. So the destination is the file that the
dotted name of the view stands for, and whatever the options are, a run writes below the views
path and below the folder of the locale only.
-/
namespace BladeForm

namespace Path

def IsName (s : String) : Prop := s ≠ "" ∧ s ≠ "." ∧ s ≠ ".." ∧ '/' ∉ s.toList

instance (s : String) : Decidable (IsName s) :=
  inferInstanceAs (Decidable (s ≠ "" ∧ s ≠ "." ∧ s ≠ ".." ∧ '/' ∉ s.toList))

theorem name_leads {s : String} (name : IsName s) :
    isSilent s.toList = false ∧ isUpward s.toList = false := by
  obtain ⟨some, here, upward, _⟩ := name
  have differ : ∀ {q : String}, s ≠ q → ¬ s.toList = q.toList :=
    fun other same => other (String.toList_inj.1 same)
  exact ⟨by simpa [isSilent] using ⟨some, differ here⟩, by simpa [isUpward] using differ upward⟩

theorem name_relative {s : String} (name : IsName s) : s.toList.head? ≠ some '/' :=
  fun first => name.2.2.2 (List.mem_of_head? first)

theorem join_join (p : Path) {q r : String} (name : IsName q)
    (relative : r.toList.head? ≠ some '/') : (p.join q).join r = p.join (q ++ "/" ++ r) := by
  obtain ⟨c, cs, spelled⟩ := List.exists_cons_of_ne_nil
    (fun none => name.1 (String.toList_inj.1 none) : q.toList ≠ [])
  have both : (q ++ "/" ++ r).toList.head? ≠ some '/' := by
    have first := name_relative name
    rw [spelled] at first
    simpa [spelled] using first
  have opened : ∀ front : String, ¬ (front ++ q).toList.getLast?.all isSeparator = true := by
    intro front closed
    rw [String.toList_append, List.getLast?_append_of_ne_nil _ (by simp [spelled])] at closed
    cases ends : q.toList.getLast? with
    | none => simp [spelled] at ends
    | some d =>
      rw [ends, Option.all_some, isSeparator_iff] at closed
      subst d
      exact name.2.2.2 (List.mem_of_getLast? ends)
  simp only [join, name_relative name, relative, both, ↓reduceIte]
  split
  · rw [if_neg (opened p.text)]
    simp only [String.append_assoc]
  · rw [if_neg (opened (p.text ++ "/"))]
    simp only [String.append_assoc]

/-- What one path adds to another, name by name. -/
structure Adds (base : Path) (names : List String) (p : Path) : Prop where
  nonempty : names ≠ []
  plain : ∀ n ∈ names, IsName n
  joined : p = names.foldl join base
  steps : steps p.segments = steps base.segments ++ names.map String.toList
  start : p.isAbsolute = base.isAbsolute

theorem joins_steps (p : Path) {names : List String} (plain : ∀ n ∈ names, IsName n) :
    steps (names.foldl join p).segments = steps p.segments ++ names.map String.toList ∧
      (names.foldl join p).isAbsolute = p.isAbsolute := by
  induction names generalizing p with
  | nil => simp
  | cons n rest ih =>
    obtain ⟨name, others⟩ := List.forall_mem_cons.1 plain
    obtain ⟨later, start⟩ := ih (p.join n) others
    obtain ⟨before, split, same⟩ := join_steps p name.2.2.2
    have named : steps [n.toList] = [n.toList] := by simp [steps, (name_leads name).1]
    refine ⟨?_, start.trans (join_isAbsolute p (name_relative name))⟩
    rw [List.foldl_cons, later, split, steps_append, same, named, List.append_assoc]
    rfl

theorem adds_joins (base : Path) {names : List String} (nonempty : names ≠ [])
    (plain : ∀ n ∈ names, IsName n) : Adds base names (names.foldl join base) :=
  have ⟨steps, start⟩ := joins_steps base plain
  ⟨nonempty, plain, rfl, steps, start⟩

theorem slashed_relative {names : List String} (plain : ∀ n ∈ names, IsName n) :
    ("/".intercalate names).toList.head? ≠ some '/' := by
  cases names with
  | nil => simp
  | cons n rest =>
    have name := plain n List.mem_cons_self
    cases rest with
    | nil => simpa using name_relative name
    | cons next rest =>
      have some : n.toList ≠ [] := fun none => name.1 (String.toList_inj.1 none)
      rw [String.intercalate_cons_cons, String.append_assoc, String.toList_append,
        List.head?_append_of_ne_nil _ some]
      exact name_relative name

theorem joins_slashed (p : Path) {names : List String} (nonempty : names ≠ [])
    (plain : ∀ n ∈ names, IsName n) : names.foldl join p = p.join ("/".intercalate names) := by
  induction names generalizing p with
  | nil => contradiction
  | cons n rest ih =>
    obtain ⟨name, others⟩ := List.forall_mem_cons.1 plain
    cases rest with
    | nil => simp
    | cons next rest =>
      rw [List.foldl_cons, ih (p.join n) (by simp) others, String.intercalate_cons_cons]
      exact join_join p name (slashed_relative others)

end Path

namespace Tree

def leads? (t : Tree) (p : Path) : Option Location := p.segments.foldlM t.follow (t.origin p)

theorem leads?_join {t : Tree} {p : Path} {n : String} {loc : Location} (name : Path.IsName n)
    (leads : t.leads? (p.join n) = some loc) : ∃ l, t.leads? p = some l ∧ loc = l ++ [n] := by
  obtain ⟨before, split, same⟩ := Path.join_steps p name.2.2.2
  obtain ⟨silent, upward⟩ := Path.name_leads name
  rw [leads?, split, List.foldlM_append, Option.bind_eq_bind, Option.bind_eq_some_iff] at leads
  obtain ⟨l, follows, last⟩ := leads
  rw [List.foldlM_cons, Option.bind_eq_bind, Option.bind_eq_some_iff] at last
  obtain ⟨next, further, same'⟩ := last
  cases same'
  obtain ⟨folder, cases⟩ := follow_cases further
  rw [followAll_steps folder, same, ← followAll_steps folder, origin,
    Path.join_isAbsolute p (Path.name_relative name)] at follows
  rcases cases with ⟨none, _⟩ | ⟨up, _⟩ | ⟨_, rfl, _⟩
  · simp [none] at silent
  · simp [up] at upward
  · exact ⟨l, follows, by rw [String.ofList_toList]⟩

/-- A location right below where a path leads, or deeper. -/
def Within (t : Tree) (p : Path) (loc : Location) : Prop :=
  ∃ l names, t.leads? p = some l ∧ names ≠ [] ∧ (∀ n ∈ names, Path.IsName n) ∧ loc = l ++ names

theorem leads?_joins {t : Tree} {p : Path} {names : List String} {loc : Location}
    (plain : ∀ n ∈ names, Path.IsName n) (leads : t.leads? (names.foldl Path.join p) = some loc) :
    ∃ l, t.leads? p = some l ∧ loc = l ++ names := by
  induction names generalizing p with
  | nil => exact ⟨loc, leads, (List.append_nil loc).symm⟩
  | cons n rest ih =>
    obtain ⟨name, others⟩ := List.forall_mem_cons.1 plain
    obtain ⟨middle, further, rfl⟩ := ih others leads
    obtain ⟨l, first, rfl⟩ := leads?_join name further
    exact ⟨l, first, by rw [List.append_assoc, List.singleton_append]⟩

theorem place?_within {t : Tree} {base p : Path} {names : List String} {loc : Location}
    (adds : Path.Adds base names p) (place : t.place? p = some loc) : t.Within base loc := by
  rw [place?] at place
  split at place
  · have leads : t.leads? (names.foldl Path.join base) = some loc := by
      rw [← adds.joined]
      exact place
    obtain ⟨l, first, same⟩ := leads?_joins adds.plain leads
    exact ⟨l, names, first, adds.nonempty, adds.plain, same⟩
  · contradiction

end Tree

namespace Destination

def Plain (s : String) : Prop := s ≠ "" ∧ ∀ c ∈ s.toList, isSegmentEnd c = false

theorem plain_free {s : String} (plain : Plain s) {c : Char} (ends : isSegmentEnd c = true) :
    c ∉ s.toList := by
  intro member
  rw [plain.2 c member] at ends
  contradiction

theorem plain_name {s : String} (plain : Plain s) : Path.IsName s := by
  have noDot : '.' ∉ s.toList := plain_free plain (by decide)
  refine ⟨plain.1, ?_, ?_, plain_free plain (by decide)⟩
  · rintro rfl
    exact noDot (by decide)
  · rintro rfl
    exact noDot (by decide)

theorem optionSegments_plain {s piece : String} (member : piece ∈ optionSegments s) :
    Plain piece := by
  obtain ⟨cs, inside, rfl⟩ := List.mem_map.1 member
  obtain ⟨split, nonempty⟩ := List.mem_filter.1 inside
  constructor
  · intro empty
    rw [← String.toList_inj, String.toList_ofList] at empty
    simp [empty] at nonempty
  · rw [String.toList_ofList]
    exact Text.mem_splitAtEach split

theorem word_noEnd {c : Char} (word : Name.isWordChar c = true) : isSegmentEnd c = false := by
  rw [← Bool.not_eq_true]
  intro ends
  simp only [isSegmentEnd, Bool.or_eq_true, decide_eq_true_eq] at ends
  rcases ends with (rfl | rfl) | rfl <;> exact absurd word (by decide)

theorem segments_plain {model : String} (valid : Name.isModelName model = true)
    (viewsDirectory routesPrefix : Option String) :
    ∀ n ∈ segments viewsDirectory routesPrefix model, Plain n := by
  have given : ∀ {option : Option String} {n : String},
      n ∈ (option.map optionSegments).getD [] → Plain n := by
    intro option n member
    cases option with
    | none => cases member
    | some s => exact optionSegments_plain member
  intro n member
  rw [segments, List.mem_append, List.mem_append] at member
  rcases member with (fromDirectory | fromPrefix) | last
  · exact given fromDirectory
  · exact given fromPrefix
  · rw [List.mem_singleton.1 last]
    exact ⟨Name.pluralSnake_ne valid,
      fun c inside => word_noEnd (Name.wordy_pluralSnake valid c inside)⟩

def slashed (s : String) : String :=
  String.ofList (s.toList.map fun c => if c = '.' then '/' else c)

/-- The file that a dotted view name stands for. -/
def fileOf (viewName : String) : String := slashed viewName ++ ".blade.php"

theorem slashed_append (a b : String) : slashed (a ++ b) = slashed a ++ slashed b := by
  simp [slashed]

theorem slashed_plain {s : String} (plain : Plain s) : slashed s = s := by
  have same : ∀ c ∈ s.toList, (if c = '.' then '/' else c) = c := by
    intro c member
    rw [if_neg]
    rintro rfl
    exact plain_free plain (by decide) member
  rw [slashed, List.map_congr_left same, List.map_id', String.ofList_toList]

theorem slashed_dotted {names : List String} (plain : ∀ n ∈ names, Plain n) :
    slashed (".".intercalate names) = "/".intercalate names := by
  induction names with
  | nil => rfl
  | cons n rest ih =>
    obtain ⟨first, others⟩ := List.forall_mem_cons.1 plain
    cases rest with
    | nil => simpa using slashed_plain first
    | cons next rest =>
      rw [String.intercalate_cons_cons, String.intercalate_cons_cons, slashed_append,
        slashed_append, slashed_plain first, ih others]
      rfl

theorem intercalate_last (sep last ending : String) (names : List String) :
    sep.intercalate (names ++ [last]) ++ ending = sep.intercalate (names ++ [last ++ ending]) := by
  induction names with
  | nil => simp
  | cons n rest ih =>
    cases rest with
    | nil => simp [String.append_assoc]
    | cons next rest =>
      simp only [List.cons_append] at ih ⊢
      rw [String.intercalate_cons_cons, String.intercalate_cons_cons, String.append_assoc, ih]

theorem fileOf_viewName {model : String} (valid : Name.isModelName model = true)
    (viewsDirectory routesPrefix : Option String) :
    fileOf (viewName viewsDirectory routesPrefix model)
      = "/".intercalate (segments viewsDirectory routesPrefix model ++ [fileName]) := by
  have plain : ∀ n ∈ segments viewsDirectory routesPrefix model ++ ["form"], Plain n := by
    intro n member
    rcases List.mem_append.1 member with segment | last
    · exact segments_plain valid _ _ n segment
    · rw [List.mem_singleton.1 last]
      exact ⟨by decide, by simp [isSegmentEnd]⟩
  rw [fileOf, viewName, slashed_dotted plain, intercalate_last]
  rfl

theorem path_adds {model : String} (valid : Name.isModelName model = true) (views : Path)
    (viewsDirectory routesPrefix : Option String) :
    views.Adds (segments viewsDirectory routesPrefix model ++ [fileName])
      (path views viewsDirectory routesPrefix model) := by
  have joined : path views viewsDirectory routesPrefix model
      = (segments viewsDirectory routesPrefix model ++ [fileName]).foldl Path.join views := by
    rw [path, List.foldl_append]
    rfl
  rw [joined]
  refine Path.adds_joins views (by simp) fun n member => ?_
  rcases List.mem_append.1 member with segment | last
  · exact plain_name (segments_plain valid _ _ n segment)
  · rw [List.mem_singleton.1 last]
    decide

end Destination

namespace Settings

theorem languagePath_adds {s : Settings} (group : Name.isGroupName s.languageFileName = true) :
    (s.paths.languages.join s.locale).Adds [s!"{s.languageFileName}.php"] s.languagePath := by
  refine Path.adds_joins _ (by simp) fun n member => ?_
  rw [List.mem_singleton.1 member]
  have text : (s!"{s.languageFileName}.php").toList
      = s.languageFileName.toList ++ ['.', 'p', 'h', 'p'] := by
    simp [toString]
  have other : ∀ {q : String}, q.toList.length < 4 → s!"{s.languageFileName}.php" ≠ q := by
    rintro q short rfl
    rw [text, List.length_append] at short
    exact absurd short (by simp)
  refine ⟨other (by decide), other (by decide), other (by decide), ?_⟩
  rw [text]
  simp [group_free group (by decide : Name.isWordChar '/' = false) (by decide)]

end Settings

namespace Plan

theorem changed_within {t t' : Tree} {o : Options} {c : Config} {r : Except Failure Generated}
    (created : create t o c = (t', r)) {loc : Location} (changed : ¬ Tree.KeptAt t t' loc) :
    t'.Within c.paths.views loc ∨ t'.Within (c.paths.languages.join c.defaults.locale) loc := by
  rcases create_cases created with ⟨e, _, rfl, _⟩ | ⟨p, made, executed⟩
  · exact absurd (Tree.kept_refl t' loc) changed
  · have settles := Options.settle_ok (make_ok made).settled
    have effect := effect_executed made executed
    by_cases view : t'.place? p.settings.destination = some loc
    · left
      rw [← settles.paths]
      exact Tree.place?_within (Destination.path_adds settles.model _ _ _) view
    · by_cases file : t'.place? p.settings.languagePath = some loc
      · right
        rw [← settles.paths, ← settles.locale]
        exact Tree.place?_within (Settings.languagePath_adds settles.group) file
      · exact absurd (effect.others loc view file) changed

/-- Whatever the options are, the destination is the file that the view name stands for, every
    name on the way to it is a plain one, and a run writes below the views path and below the
    folder of the locale only. -/
theorem destination_contained :
    (∀ (views : Path) (viewsDirectory routesPrefix : Option String) (model : String),
      Name.isModelName model = true →
        Destination.path views viewsDirectory routesPrefix model
          = views.join
            (Destination.fileOf (Destination.viewName viewsDirectory routesPrefix model)) ∧
        views.Adds
          (Destination.segments viewsDirectory routesPrefix model ++ [Destination.fileName])
          (Destination.path views viewsDirectory routesPrefix model)) ∧
      ∀ (t t' : Tree) (o : Options) (c : Config) (r : Except Failure Generated),
        create t o c = (t', r) → ∀ loc, ¬ Tree.KeptAt t t' loc →
          t'.Within c.paths.views loc ∨
            t'.Within (c.paths.languages.join c.defaults.locale) loc := by
  constructor
  · intro views viewsDirectory routesPrefix model valid
    have adds := Destination.path_adds valid views viewsDirectory routesPrefix
    refine ⟨?_, adds⟩
    rw [Destination.fileOf_viewName valid]
    exact adds.joined.trans (Path.joins_slashed views adds.nonempty adds.plain)
  · intro t t' o c r created loc changed
    exact changed_within created changed

def climbingOptions : Options :=
  { modelName := "Post", viewsDirectory := some "/../a\\b/..", routesPrefix := some "x..y/" }

theorem climbing_contained :
    Destination.path ⟨"site/"⟩ (some "/../a\\b/..") (some "x..y/") "Post"
      = Path.join ⟨"site/"⟩ "a/b/x/y/posts/form.blade.php" ∧
    ∃ t' r, create (sharedTree []) climbingOptions sharedConfig = (t', r) ∧
      t'.read? ⟨"site/a/b/x/y/posts/form.blade.php"⟩ = some "'post'!" ∧
      ∀ loc, ¬ Tree.KeptAt (sharedTree []) t' loc →
        t'.Within ⟨"site"⟩ loc ∨ t'.Within ⟨"site/en"⟩ loc := by
  constructor
  · have names : Destination.fileOf
        (Destination.viewName (some "/../a\\b/..") (some "x..y/") "Post")
          = "a/b/x/y/posts/form.blade.php" := by decide +kernel
    rw [← names]
    exact (destination_contained.1 _ _ _ "Post" (by decide)).1
  · have folder : sharedConfig.paths.languages.join sharedConfig.defaults.locale
        = ⟨"site/en"⟩ := by decide +kernel
    obtain ⟨⟨t', r⟩, run⟩ : ∃ x, create (sharedTree []) climbingOptions sharedConfig = x :=
      ⟨_, rfl⟩
    refine ⟨t', r, run, ?_, ?_⟩
    · have view : (create (sharedTree []) climbingOptions sharedConfig).1.read?
          ⟨"site/a/b/x/y/posts/form.blade.php"⟩ = some "'post'!" := by decide +kernel
      rwa [run] at view
    · rw [← folder]
      exact destination_contained.2 _ t' _ sharedConfig r run

end Plan

end BladeForm
