import BladeForm.Config.Load
import BladeForm.Proofs.Config.Decode
import BladeForm.Proofs.Tree.Files

/-!
Which configuration holds. What a document gives replaces the defaults, key by key, and relative
paths start from the directory of the file, whether it is there or not.
-/
namespace BladeForm

namespace Path

theorem fileName?_parent {p : Path} {name : List Char} (named : p.fileName? = some name) :
    ∃ q, p.parent? = some q := by
  obtain ⟨q, parent, _⟩ := parent?_inner (fileName?_some named)
  exact ⟨q, parent⟩

theorem fileName?_join (p : Path) {q : String} (free : '/' ∉ q.toList)
    (leads : isSilent q.toList = false ∧ isUpward q.toList = false) :
    (p.join q).fileName? = some q.toList := by
  obtain ⟨before, split⟩ := join_segments p free
  exact fileName?_named split leads.1 leads.2

end Path

namespace Config
open Toml (Table below parse?)

theorem fileName_free : '/' ∉ fileName.toList := by decide

theorem fileName_joined (path : Path) :
    (path.join fileName).fileName? = some fileName.toList :=
  Path.fileName?_join path fileName_free (by decide)

theorem filePath_named {t : Tree} {path : Path} (named : path.fileName? = some fileName.toList) :
    filePath t path = path := by
  rw [filePath, if_pos]
  simp [named]

theorem filePath_folder {t : Tree} {path : Path} (other : path.fileName? ≠ some fileName.toList)
    (noFile : t.isFile path = false) : filePath t path = path.join fileName := by
  rw [filePath, if_neg]
  simp [other, noFile]

theorem filePath_cases (t : Tree) (path : Path) :
    (path.fileName? = some fileName.toList ∨ t.isFile path = true) ∧ filePath t path = path ∨
      (path.fileName? ≠ some fileName.toList ∧ t.isFile path = false) ∧
        filePath t path = path.join fileName := by
  by_cases own : path.fileName? = some fileName.toList ∨ t.isFile path = true
  · refine Or.inl ⟨own, ?_⟩
    rw [filePath, if_pos]
    simpa using own
  · rw [not_or, Bool.not_eq_true] at own
    exact Or.inr ⟨own, filePath_folder own.1 own.2⟩

theorem filePath_parent (t : Tree) (path : Path) :
    ∃ base, (filePath t path).parent? = some base := by
  rcases filePath_cases t path with ⟨named | file, same⟩ | ⟨_, same⟩
  · rw [same]
    exact Path.fileName?_parent named
  · rw [same]
    obtain ⟨before, name, split, silent, upward⟩ := Tree.file_named file
    exact Path.fileName?_parent (Path.fileName?_named split silent upward)
  · rw [same]
    exact Path.fileName?_parent (fileName_joined path)

/-- Where one tree has no file, another tree that has one finds it by the same path. -/
theorem filePath_found {t t' : Tree} {path : Path} (missing : t.has (filePath t path) = false)
    (there : t'.isFile (filePath t path) = true) : filePath t' path = filePath t path := by
  rcases filePath_cases t path with ⟨named | file, same⟩ | ⟨⟨other, _⟩, same⟩
  · rw [same, filePath_named named]
  · rw [same, Tree.isFile_has file] at missing
    cases missing
  · rw [same] at there ⊢
    exact filePath_folder other (Tree.isFile_join fileName_free there)

/-- A relative path starts from the base, an absolute one stays. -/
def Rooted (base p q : Path) : Prop :=
  (p.isAbsolute = true → q = p) ∧ (p.isAbsolute = false → q = base.join p.text)

theorem rootPath_rooted (base p : Path) : Rooted base p (rootPath base p) := by
  constructor
  · intro absolute
    rw [rootPath, if_pos absolute]
  · intro relative
    rw [rootPath, relative]
    rfl

/-- What a document settles that stands in the directory `base`: a path, an option or a class that
    it gives, and the default where it gives none. -/
structure Settles (base : Path) (es : Table) (c : Config) : Prop where
  path : ∀ field ∈ [Paths.resourceFiles, Paths.views, Paths.stubs, Paths.languages],
    Rooted base (field (({} : Paths).overriddenBy (below es "paths"))) (field c.paths)
  defaults : c.defaults = ({} : Defaults).overriddenBy (below es "defaults")
  names : c.templates.map Prod.fst = (below es "templates").map Prod.fst
  style : ∀ name,
    c.styleFor name = ({} : Style).overriddenBy (below (below es "templates") name)

theorem overridden_settles (base : Path) (es : Table) :
    Settles base es ((overriddenBy {} es).rootedAt base) where
  path := by
    simp only [rootedAt, overridden_paths, List.forall_mem_cons]
    exact ⟨rootPath_rooted .., rootPath_rooted .., rootPath_rooted .., rootPath_rooted .., nofun⟩
  defaults := overridden_defaults es
  names := by
    rw [rootedAt, overridden_templates, families, List.map_map]
    rfl
  style name := by rw [styleFor, rootedAt, overridden_templates, families_lookup]

section
variable {t : Tree} {path base : Path} (parent : (filePath t path).parent? = some base)
include parent

theorem load_missing (missing : t.has (filePath t path) = false) :
    load t path = .ok (rootedAt {} base) := by
  simp [load, parent, missing]

theorem load_read {text : String} {es : Table} (read : t.read? (filePath t path) = some text)
    (parsed : parse? text = some es) (fits : ∀ e ∈ es, Fits e.1 e.2) :
    load t path = .ok ((overriddenBy {} es).rootedAt base) := by
  have there : t.has (filePath t path) = true := Tree.isFile_has (Tree.read?_isFile read)
  have decoded := ofTable_given fits (Toml.parse?_keyed parsed)
  simp [load, parent, there, read, parsed, decoded]

end

/-- In a document that keeps to the schema every key that it gives replaces its default, and no
    other setting changes. Where the file is looked for and missing, an empty one would make no
    difference, and the directory of the file is as good a path as the file. -/
theorem defaults_overridden (t : Tree) (path : Path) :
    ∃ base, (filePath t path).parent? = some base ∧
      (∀ text es, t.read? (filePath t path) = some text → parse? text = some es →
        (∀ e ∈ es, Fits e.1 e.2) → ∃ c, load t path = .ok c ∧ Settles base es c) ∧
      (t.has (filePath t path) = false → ∃ c, load t path = .ok c ∧ Settles base [] c ∧
        ∀ t', t'.read? (filePath t path) = some "" → load t' path = .ok c) ∧
      (path.fileName? ≠ some fileName.toList → t.isFile path = false →
        load t (path.join fileName) = load t path) := by
  obtain ⟨base, parent⟩ := filePath_parent t path
  refine ⟨base, parent, ?_, ?_, ?_⟩
  · intro text es read parsed fits
    exact ⟨_, load_read parent read parsed fits, overridden_settles base es⟩
  · intro missing
    refine ⟨_, load_missing parent missing, overridden_settles base [], ?_⟩
    intro t' empty
    have same := filePath_found missing (Tree.read?_isFile empty)
    rw [← same] at parent empty
    have blank : parse? "" = some [] := rfl
    exact load_read parent empty blank nofun
  · intro other noFile
    rw [load, load, filePath_named (fileName_joined path), filePath_folder other noFile]

def siteDocument : String :=
  "[project]\nname = \"blog\"\n[paths]\nviews = \"/srv/views\"\nstubs = \"stubs\"\n" ++
    "[defaults]\nlocale = \"fr\"\n[templates.tailwind]\ninput_class = \"input\"\n"

def projectTree (document : String) : Tree :=
  ⟨[("site", .folder [("formcraft.toml", .file (.text document))])], []⟩

theorem project_file (document : String) :
    filePath (projectTree document) ⟨"site"⟩ = ⟨"site/formcraft.toml"⟩ := rfl

theorem site_overridden : ∃ c, load (projectTree siteDocument) ⟨"site"⟩ = .ok c ∧
    c.paths.views = ⟨"/srv/views"⟩ ∧ c.paths.stubs = ⟨"site/stubs"⟩ ∧
    c.paths.languages = ⟨"site/resources/lang"⟩ ∧
    c.defaults = ⟨"layouts.app", "default", "fr"⟩ ∧
    c.styleFor "tailwind" = ⟨"form-group", "col-md-2 control-label", "col-md-10", "input"⟩ ∧
    c.styleFor "plain" = {} := by
  have document : (parse? siteDocument).map (fun es => (decide (∀ e ∈ es, Fits e.1 e.2),
      ({} : Paths).overriddenBy (below es "paths"),
      ({} : Defaults).overriddenBy (below es "defaults"),
      ({} : Style).overriddenBy (below (below es "templates") "tailwind"),
      ({} : Style).overriddenBy (below (below es "templates") "plain")))
      = some (true, { views := ⟨"/srv/views"⟩, stubs := ⟨"stubs"⟩ }, { locale := "fr" },
        { inputClass := "input" }, {}) := by decide +kernel
  obtain ⟨es, parsed, told⟩ := Option.map_eq_some_iff.1 document
  simp only [Prod.mk.injEq, decide_eq_true_eq] at told
  obtain ⟨fits, paths, defaults, tailwind, plain⟩ := told
  obtain ⟨base, parent, given, _⟩ := defaults_overridden (projectTree siteDocument) ⟨"site"⟩
  rw [project_file] at parent given
  obtain rfl : base = ⟨"site"⟩ := Option.some.inj (parent.symm.trans rfl)
  obtain ⟨c, loaded, settles⟩ := given siteDocument es rfl parsed fits
  have place := settles.path
  rw [paths] at place
  have views := (place Paths.views (by simp)).1 rfl
  have stubs := (place Paths.stubs (by simp)).2 rfl
  have languages := (place Paths.languages (by simp)).2 rfl
  exact ⟨c, loaded, views, stubs, languages, settles.defaults.trans defaults,
    (settles.style _).trans tailwind, (settles.style _).trans plain⟩

end Config

end BladeForm
