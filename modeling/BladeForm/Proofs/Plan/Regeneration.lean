import BladeForm.Proofs.Plan.Parts
import BladeForm.Proofs.Plan.Placeholders
import BladeForm.Proofs.Tree.Replacement

/-!
Generating a view again. The second run finds the resource, the stub and the language file that
the first one left, so it puts the same text where the view is and has no key to add. What the view
held in between is of no account. It takes a run that leaves its resource alone and does not lead
its stub path to a file that was out of reach before.
-/
namespace BladeForm

namespace Settings

def resourcePath (s : Settings) (t : Tree) : Path :=
  Resource.locate t s.resourceFile s.paths.resourceFiles

def stubPath (s : Settings) : Path := Stub.pathOf s.paths.stubs s.templateName Stub.formStub

def stubName : List Char :=
  ['f', 'o', 'r', 'm', '.', 'b', 'l', 'a', 'd', 'e', '.', 's', 't', 'u', 'b']

theorem stubPath_segments (s : Settings) : ∃ before, s.stubPath.segments = before ++ [stubName] :=
  @Path.join_segments _ s!"{Stub.formStub}.stub" (by decide)

theorem stub_apart {s : Settings} (group : Name.isGroupName s.languageFileName = true) {t : Tree}
    {loc : Location} (place : t.place? s.stubPath = some loc) :
    t.place? s.destination ≠ some loc ∧ t.place? s.languagePath ≠ some loc := by
  obtain ⟨before, stub⟩ := s.stubPath_segments
  constructor
  · intro view
    obtain ⟨front, split⟩ := s.destination_segments
    exact Tree.place?_apart stub split (by decide) (by decide) (by decide) place view rfl
  · intro file
    obtain ⟨front, split⟩ := languagePath_segments group
    refine Tree.place?_apart stub split ?_ (by decide) (long_named (by simp)) place file rfl
    intro same
    have ending := congrArg List.getLast? same
    simp [stubName, List.getLast?_append] at ending

end Settings

namespace Resource

theorem locate_replaced {t : Tree} {loc : Location} {content : Content}
    (file : t.entryAt? loc = some (some content)) (other : Content) (name : String) (base : Path) :
    locate (t.put loc (.file other)) name base = locate t name base := by
  simp only [locate, Tree.has_replaced file other]

end Resource

namespace Plan

/-- A run neither shadows its own resource file nor changes it, and the view is another file. -/
structure KeepsResource (t t' : Tree) (s : Settings) : Prop where
  found : s.resourcePath t' = s.resourcePath t
  apart : t'.place? (s.resourcePath t) ≠ t'.place? s.destination
  kept : t'.read? (s.resourcePath t) = t.read? (s.resourcePath t)

/-- Where the stub path leads to a file after a run, it did so before. -/
def BringsNoStub (t t' : Tree) (s : Settings) : Prop :=
  t'.isFile s.stubPath = true → t.isFile s.stubPath = true

theorem check_forced {t t' : Tree} {path : Path} {r : Resource} {mode : WriteMode}
    (checked : Destination.check t path true r = .ok mode) (there : t'.has path = true) :
    Destination.check t' path true r = .ok .overwrite := by
  unfold Destination.check at checked ⊢
  simp only [there, Bool.not_true, Bool.and_false, Bool.false_eq_true, ↓reduceIte] at checked ⊢
  split at checked
  · cases checked
  · next shown => rw [if_neg shown]

theorem make_again {t t' : Tree} {o : Options} {c : Config} {p : Plan} (made : make t o c = .ok p)
    (forced : o.force = true) (there : t'.has p.destination = true)
    (resource : Resource.load t' p.settings.resourceFile p.settings.paths.resourceFiles
      (some p.settings.languageFileName) = .ok p.resource)
    (stub : Stub.load t' p.settings.paths.stubs p.settings.templateName Stub.formStub
      = .ok p.stub) :
    ∃ q, make t' o c = .ok q ∧ q.mode = .overwrite ∧ q.settings = p.settings ∧
      q.resource = p.resource ∧ q.text = p.text := by
  obtain ⟨s, r, mode, st, settled, _, checked, _, rfl⟩ := make_iff.1 made
  have force : s.force = true := (Options.settle_ok settled).force.trans forced
  have again : Destination.check t' s.destination s.force r = .ok .overwrite := by
    rw [force] at checked ⊢
    exact check_forced checked there
  exact ⟨ofParts c s r .overwrite st,
    make_iff.2 ⟨s, r, .overwrite, st, settled, resource, again, stub, rfl⟩, rfl, rfl, rfl, rfl⟩

theorem execute_of {t middle t' : Tree} {p : Plan} {u : Language.Update}
    (written : t.write p.destination p.text = (middle, true))
    (updated : Language.update middle p.settings.languagePath p.languageEntries = (t', .ok u)) :
    p.execute t = (t', .ok ⟨p.destination, p.mode, u⟩) := by
  unfold execute
  simp only [written, updated]

theorem parts_replaced {t t' : Tree} {o : Options} {c : Config} {p : Plan} {g : Generated}
    (run : Created t t' o c p g) (keeps : KeepsResource t t' p.settings)
    (noStub : BringsNoStub t t' p.settings) {view : Location} {content : Content}
    (place : t'.place? p.settings.destination = some view)
    (file : t'.entryAt? view = some (some content)) (other : Content) :
    Resource.load (t'.put view (.file other)) p.settings.resourceFile
        p.settings.paths.resourceFiles (some p.settings.languageFileName) = .ok p.resource ∧
      Stub.load (t'.put view (.file other)) p.settings.paths.stubs p.settings.templateName
        Stub.formStub = .ok p.stub := by
  have parts := make_ok run.made
  have group := (Options.settle_ok parts.settled).group
  have apart : t'.place? p.settings.stubPath ≠ some view :=
    fun stub => (Settings.stub_apart group stub).1 place
  constructor
  · obtain ⟨text, read, whole⟩ := Resource.load_ok.1 parts.loaded
    have located : Resource.locate (t'.put view (.file other)) p.settings.resourceFile
        p.settings.paths.resourceFiles = p.settings.resourcePath t :=
      (Resource.locate_replaced file other _ _).trans keeps.found
    refine Resource.load_ok.2 ⟨text, ?_, by rw [located]; exact whole⟩
    rw [located, Tree.read?_replaced file other (by rw [← place]; exact keeps.apart), keeps.kept]
    exact read
  · refine Stub.load_ok.2 ?_
    rcases Stub.load_ok.1 parts.stub with ⟨text, read, same⟩ | ⟨absent, default, form, same⟩
    · left
      refine ⟨text, ?_, same⟩
      change (t'.put view (.file other)).read? p.settings.stubPath = some text
      rw [Tree.read?_replaced file other apart]
      obtain ⟨loc, stub, there⟩ := Tree.read?_iff.1 read
      have stub' := Tree.place?_grows run.grows stub
      obtain ⟨noView, noLanguage⟩ := Settings.stub_apart group stub'
      have kept := (effect_executed run.made run.executed).others loc noView noLanguage
      exact Tree.read?_iff.2 ⟨loc, stub', (Tree.kept_file kept _).2 there⟩
    · right
      refine ⟨?_, default, form, same⟩
      change (t'.put view (.file other)).isFile p.settings.stubPath = false
      rw [Tree.isFile_replaced file other apart, ← Bool.not_eq_true]
      intro brought
      have before := noStub brought
      rw [Settings.stubPath, absent] at before
      exact Bool.false_ne_true before

/-- Over any content of the view, the second run leaves the tree of the first. -/
theorem create_again {t t' : Tree} {o : Options} {c : Config} {s : Settings} {g : Generated}
    (forced : o.force = true) (settled : o.settle c = .ok s) (created : create t o c = (t', .ok g))
    (keeps : KeepsResource t t' s) (noStub : BringsNoStub t t' s) :
    ∃ view text, t'.place? g.path = some view ∧ t'.entryAt? view = some (some (.text text)) ∧
      ∀ other, create (t'.put view (.file other)) o c
        = (t', .ok ⟨g.path, .overwrite, ⟨g.language.path, []⟩⟩) := by
  obtain ⟨p, run⟩ := create_done created
  have parts := make_ok run.made
  rw [parts.settled] at settled
  cases settled
  obtain ⟨view, place, file⟩ := Tree.read?_iff.1 run.view
  obtain ⟨content, read, keys⟩ := run.language
  rw [run.path, run.languagePath]
  refine ⟨view, p.text, place, file, fun other => ?_⟩
  have there : (t'.put view (.file other)).has p.destination = true := by
    rw [Tree.has_replaced file other, parts.destination]
    exact Tree.has_file place file
  obtain ⟨resource, stub⟩ := parts_replaced run keeps noStub place file other
  obtain ⟨q, remade, mode, settings, fields, text⟩ :=
    make_again run.made forced there resource stub
  have destination : q.destination = p.settings.destination := by
    rw [(make_ok remade).destination, settings]
  have entries : q.languageEntries = p.languageEntries := by
    rw [languageEntries, fields, settings]
    rfl
  have rewritten : (t'.put view (.file other)).write q.destination q.text = (t', true) := by
    rw [destination, text, Tree.write_present (by rw [Tree.place?_replaced file other, place])
      (Tree.entryAt?_replaced file other), Tree.put_back file other]
  have complete : Language.update t' q.settings.languagePath q.languageEntries
      = (t', .ok ⟨q.settings.languagePath, []⟩) := by
    rw [settings, entries]
    exact Language.update_complete read keys
  unfold create
  rw [remade]
  dsimp only
  rw [execute_of rewritten complete, destination, mode, settings]

theorem text_determined {t t' : Tree} {o : Options} {c : Config} {p q : Plan}
    (first : make t o c = .ok p) (second : make t' o c = .ok q)
    (fields : p.resource.fields = q.resource.fields) (stub : p.stub.text = q.stub.text) :
    p.text = q.text := by
  have settled := (make_ok first).settled
  rw [(make_ok second).settled] at settled
  rw [made_text first, made_text second, ← Except.ok.inj settled, Stub.render, Stub.render, stub]
  simp only [placeholdersOf, formOf, fields]

/-- A forced run that succeeds and leaves its resource and its stub alone can be repeated: the
    second run changes nothing, and whatever the view holds when it starts, it ends in the tree of
    the first. -/
theorem regeneration_settles {t t' : Tree} {o : Options} {c : Config} {s : Settings} {g : Generated}
    (forced : o.force = true) (settled : o.settle c = .ok s) (created : create t o c = (t', .ok g))
    (keeps : KeepsResource t t' s) (noStub : BringsNoStub t t' s) :
    create t' o c = (t', .ok ⟨g.path, .overwrite, ⟨g.language.path, []⟩⟩) ∧
      (∃ view, t'.place? g.path = some view ∧ ∀ other, create (t'.put view (.file other)) o c
        = (t', .ok ⟨g.path, .overwrite, ⟨g.language.path, []⟩⟩)) ∧
      ∀ (a b : Tree) (p q : Plan), make a o c = .ok p → make b o c = .ok q →
        p.resource.fields = q.resource.fields → p.stub.text = q.stub.text → p.text = q.text := by
  obtain ⟨view, text, place, file, again⟩ := create_again forced settled created keeps noStub
  refine ⟨?_, ⟨view, place, again⟩, fun a b p q first second => text_determined first second⟩
  have same := again (.text text)
  rwa [Tree.put_present file] at same

theorem resource_kept {t t' : Tree} {o : Options} {c : Config} {s : Settings} {g : Generated}
    (settled : o.settle c = .ok s) (created : create t o c = (t', .ok g))
    {text : String} (read : t.read? (Resource.pathOf s.resourceFile) = some text)
    {before : List (List Char)} {name : List Char}
    (split : (Resource.pathOf s.resourceFile).segments = before ++ [name])
    (named : Path.isSilent name = false ∧ Path.isUpward name = false)
    (noView : name ≠ Destination.fileName.toList)
    (noFile : name ≠ s.languageFileName.toList ++ ['.', 'p', 'h', 'p']) : KeepsResource t t' s := by
  obtain ⟨p, run⟩ := create_done created
  have parts := make_ok run.made
  rw [parts.settled] at settled
  cases settled
  have located : ∀ u : Tree, u.has (Resource.pathOf p.settings.resourceFile) = true →
      p.settings.resourcePath u = Resource.pathOf p.settings.resourceFile := by
    intro u there
    rw [Settings.resourcePath, Resource.locate, there]
    simp
  have given := Tree.read_has read
  obtain ⟨loc, place, file⟩ := Tree.read?_iff.1 read
  have place' := Tree.place?_grows run.grows place
  have noDestination : t'.place? p.settings.destination ≠ some loc := by
    intro view
    obtain ⟨front, ends⟩ := p.settings.destination_segments
    exact Tree.place?_apart split ends noView named (by decide) place' view rfl
  have noLanguage : t'.place? p.settings.languagePath ≠ some loc := by
    intro language
    obtain ⟨front, ends⟩ := Settings.languagePath_segments (Options.settle_ok parts.settled).group
    exact Tree.place?_apart split ends noFile named (Settings.long_named (by simp)) place'
      language rfl
  have kept := (effect_executed run.made run.executed).others loc noDestination noLanguage
  refine ⟨?_, ?_, ?_⟩
  · rw [located t given, located t' (Tree.has_grows run.grows given)]
  · rw [located t given, place']
    exact noDestination.symm
  · rw [located t given, read, Tree.read?_iff]
    exact ⟨loc, place', (Tree.kept_file kept _).2 file⟩

def postSettings (c : Config) : Settings :=
  ⟨"Post", "post", none, none, "posts", "layouts.app", "default", true, c.paths, "en"⟩

theorem hand_edit_regenerated :
    ∃ t' g, create (sharedTree handEdited) (postOptions true) sharedConfig = (t', .ok g) ∧
      create t' (postOptions true) sharedConfig
        = (t', .ok ⟨g.path, .overwrite, ⟨g.language.path, []⟩⟩) ∧
      ∃ view, t'.place? g.path = some view ∧
        create (t'.put view (.file (.text "edited again"))) (postOptions true) sharedConfig
          = (t', .ok ⟨g.path, .overwrite, ⟨g.language.path, []⟩⟩) := by
  have settled : (postOptions true).settle sharedConfig = .ok (postSettings sharedConfig) :=
    ok_of_toOption (by decide +kernel)
  have runs : (create (sharedTree handEdited) (postOptions true) sharedConfig).2.toBool = true := by
    decide +kernel
  have stub : (sharedTree handEdited).isFile (postSettings sharedConfig).stubPath = true := by
    decide +kernel
  have read : (sharedTree handEdited).read? (Resource.pathOf "post")
      = some "[\x7b\"name\": \"title\"\x7d]" := by decide +kernel
  obtain ⟨⟨t', r⟩, run⟩ : ∃ x, create (sharedTree handEdited) (postOptions true) sharedConfig = x :=
    ⟨_, rfl⟩
  rw [run] at runs
  obtain ⟨g, rfl⟩ := ok_of_toBool runs
  have keeps : KeepsResource (sharedTree handEdited) t' (postSettings sharedConfig) :=
    @resource_kept _ _ _ _ (postSettings sharedConfig) g settled run _ read [] "post.json".toList
      (by decide +kernel) (by decide) (by decide) (by decide)
  obtain ⟨again, ⟨view, place, edited⟩, _⟩ :=
    regeneration_settles rfl settled run keeps fun _ => stub
  exact ⟨t', g, run, again, view, place, edited _⟩

def roundaboutConfig : Config := { paths := { stubs := ⟨"resources/views/../stubs"⟩ } }

def unreachedTree : Tree :=
  ⟨[("resources", .folder [("stubs", .folder [("default", .folder [
      ("form.blade.stub", .file (.text "[% view_variables %]!"))])])]),
    ("post.json", .file (.text "[\x7b\"name\": \"title\"\x7d]"))], []⟩

theorem bundled_begins : ∃ rest, Stub.bundledForm.toList = '\x7b' :: rest := by
  unfold Stub.bundledForm Stub.bundledLines
  rw [List.map_cons, String.join_cons, String.toList_append, String.toList_append]
  exact ⟨_, rfl⟩

theorem bundled_text {t t' : Tree} {o : Options} {c : Config} {s : Settings} {g : Generated}
    (settled : o.settle c = .ok s) (created : create t o c = (t', .ok g))
    (absent : t.isFile s.stubPath = false) :
    ∃ text, t'.read? g.path = some text ∧ text.toList.head? = some '\x7b' := by
  obtain ⟨p, run⟩ := create_done created
  have parts := make_ok run.made
  rw [parts.settled] at settled
  cases settled
  refine ⟨p.text, by rw [run.path, run.view], ?_⟩
  rcases Stub.load_ok.1 parts.stub with ⟨text, read, _⟩ | ⟨_, _, _, same⟩
  · rw [Settings.stubPath, Tree.read?_isFile read] at absent
    exact absurd absent.symm Bool.false_ne_true
  · obtain ⟨rest, begins⟩ := bundled_begins
    have worded := Settings.formPlaceholders_worded p.settings
    rw [made_text run.made, same]
    unfold Stub.ofText Stub.render Placeholders.substitute placeholdersOf
    dsimp only
    rw [String.toList_ofList, begins, Placeholders.substitute_first (worded _ _ _) (by decide),
      List.head?_cons]

/-- The first run finds no stub and takes the bundled one; the second finds the stub that the new
    folder of the view leads to, and the view becomes another. -/
theorem stub_reached_by_run : ∃ t' g,
    (postOptions true).settle roundaboutConfig = .ok (postSettings roundaboutConfig) ∧
    create unreachedTree (postOptions true) roundaboutConfig = (t', .ok g) ∧
    KeepsResource unreachedTree t' (postSettings roundaboutConfig) ∧
    (create t' (postOptions true) roundaboutConfig).1.read? g.path = some "'post'!" ∧
    t'.read? g.path ≠ some "'post'!" ∧
    create t' (postOptions true) roundaboutConfig
      ≠ (t', .ok ⟨g.path, .overwrite, ⟨g.language.path, []⟩⟩) := by
  have settled : (postOptions true).settle roundaboutConfig = .ok (postSettings roundaboutConfig) :=
    ok_of_toOption (by decide +kernel)
  have absent : unreachedTree.isFile (postSettings roundaboutConfig).stubPath = false := by
    decide +kernel
  have read : unreachedTree.read? (Resource.pathOf "post")
      = some "[\x7b\"name\": \"title\"\x7d]" := by decide +kernel
  have path : (create unreachedTree (postOptions true) roundaboutConfig).2.toOption.map
      (fun g => g.path) = some ⟨"resources/views/posts/form.blade.php"⟩ := by decide +kernel
  have second : (create (create unreachedTree (postOptions true) roundaboutConfig).1
      (postOptions true) roundaboutConfig).1.read? ⟨"resources/views/posts/form.blade.php"⟩
        = some "'post'!" := by decide +kernel
  obtain ⟨⟨t', r⟩, run⟩ : ∃ x, create unreachedTree (postOptions true) roundaboutConfig = x :=
    ⟨_, rfl⟩
  rw [run] at path second
  cases r with
  | error e => cases path
  | ok g =>
    have place : g.path = ⟨"resources/views/posts/form.blade.php"⟩ := Option.some.inj path
    rw [← place] at second
    obtain ⟨text, first, begins⟩ := bundled_text settled run absent
    have keeps : KeepsResource unreachedTree t' (postSettings roundaboutConfig) :=
      @resource_kept _ _ _ _ (postSettings roundaboutConfig) g settled run _ read []
        "post.json".toList (by decide +kernel) (by decide) (by decide) (by decide)
    have other : t'.read? g.path ≠ some "'post'!" := by
      intro same
      rw [first] at same
      rw [Option.some.inj same] at begins
      exact absurd begins (by decide)
    refine ⟨t', g, settled, run, keeps, second, other, fun same => other ?_⟩
    rw [← second, same]

end Plan

end BladeForm
