import BladeForm.Proofs.Language.Growth
import BladeForm.Proofs.Language.Labels
import BladeForm.Proofs.Resource.Acceptance

/-!
The keys that a resource brings into its language file. Field names are all different, but a field
may be named like one of the two keys that every model has of its own, and nothing compares the two
kinds. So a key is added twice exactly where a field takes such a name and the file does not have
the key yet; no key is added that the file has.
-/
namespace BladeForm

namespace Language

def keysAt (t : Tree) (path : Path) : List String := ((t.read? path).map definedKeys).getD []

theorem keysAt_read {t : Tree} {path : Path} {content : String}
    (read : t.read? path = some content) : keysAt t path = definedKeys content := by
  simp [keysAt, read]

theorem keysAt_absent {t : Tree} {path : Path} (absent : t.has path = false) :
    keysAt t path = [] := by
  have unread : t.read? path = none := by
    rw [Option.eq_none_iff_forall_ne_some]
    intro content read
    rw [Tree.read_has read] at absent
    cases absent
  simp [keysAt, unread]

/-- There is no file yet, or one that was rendered from some entries, whatever their keys. -/
def InLayout (t : Tree) (path : Path) : Prop :=
  t.has path = false ∨ ∃ es, t.read? path = some (render es)

theorem update_done {t t' : Tree} {path : Path} {es : List Entry} {u : Update}
    (updated : update t path es = (t', .ok u)) :
    t.has path = false ∧ t.write path (render es) = (t', true) ∧ u = ⟨path, es.map (·.1)⟩ ∨
      ∃ content, t.read? path = some content := by
  unfold update at updated
  split at updated
  · next absent =>
    obtain ⟨written, same⟩ := save_ok.1 updated
    exact Or.inl ⟨by simpa using absent, written, same⟩
  · split at updated
    · cases updated
    · next content read => exact Or.inr ⟨content, read⟩

theorem added_new {t t' : Tree} {path : Path} {es : List Entry} {u : Update}
    (updated : update t path es = (t', .ok u)) :
    u.added = (es.map (·.1)).filter fun key => !(keysAt t path).contains key := by
  rcases update_done updated with ⟨absent, _, rfl⟩ | ⟨content, read⟩
  · simp [keysAt_absent absent]
  · rw [update_added read updated, keysAt_read read, missing, List.filter_map]
    rfl

theorem keys_added_behind {t t' : Tree} {path : Path} {es : List Entry} {u : Update}
    (valid : IdentifierKeys es) (layout : InLayout t path)
    (updated : update t path es = (t', .ok u)) : keysAt t' path = keysAt t path ++ u.added := by
  rcases layout with absent | ⟨old, read⟩
  · rcases update_done updated with ⟨_, written, rfl⟩ | ⟨content, read⟩
    · rw [keysAt_read (Tree.write_read written), keysAt_absent absent, List.nil_append]
      exact render_keys fun e member => identifier_noArrow (valid e member)
    · rw [Tree.read_has read] at absent
      cases absent
  · rcases (update_present read).1 updated with ⟨_, rfl, rfl⟩ | ⟨_, merged, done, written, rfl⟩
    · simp
    · rw [append_render] at done
      cases done
      rw [keysAt_read (Tree.write_read written), keysAt_read read]
      exact render_grows old fun e member => valid e (mem_missing.1 member).1

end Language

namespace Resource
open BladeForm.Language

def modelKeys : List String := ["model_name", "model_plural"]

theorem entries_keys (fields : List Field) (model : String) :
    (entriesFor fields model).map (·.1) = modelKeys ++ fields.map (·.name) := by
  simp [entriesFor, modelKeys]

/-- A field is named like a key that every model has, and that key is not among these. -/
def Collides (fields : List Field) (known : List String) : Prop :=
  ∃ key ∈ modelKeys, key ∈ fields.map (·.name) ∧ key ∉ known

theorem new_keys_nodup_iff {fields : List Field} (distinct : (fields.map (·.name)).Nodup)
    (known : List String) :
    ((modelKeys ++ fields.map (·.name)).filter fun key => !known.contains key).Nodup ↔
      ¬ Collides fields known := by
  have own : modelKeys.Nodup := by decide
  rw [List.filter_append, List.nodup_append]
  constructor
  · rintro ⟨_, _, apart⟩ ⟨key, model, field, new⟩
    have kept : (!known.contains key) = true := by simpa using new
    exact apart key (List.mem_filter.2 ⟨model, kept⟩) key (List.mem_filter.2 ⟨field, kept⟩) rfl
  · intro apart
    refine ⟨own.filter _, distinct.filter _, ?_⟩
    rintro key model _ field rfl
    obtain ⟨model, kept⟩ := List.mem_filter.1 model
    exact apart ⟨key, model, (List.mem_filter.1 field).1, by simpa using kept⟩

theorem new_keys_count {fields : List Field} (distinct : (fields.map (·.name)).Nodup)
    {known : List String} {key : String} (new : key ∉ known) :
    ((modelKeys ++ fields.map (·.name)).filter fun key => !known.contains key).count key
      = (if key ∈ modelKeys then 1 else 0) + if key ∈ fields.map (·.name) then 1 else 0 := by
  have own : modelKeys.Nodup := by decide
  rw [List.count_filter (by simpa using new), List.count_append, own.count, distinct.count]

/-- An update adds no key that the file has, and a new one as often as the model and a field bring
    it in: once, unless a field is named like a key of the model that the file lacks. A file of the
    library's own layout gets the added keys behind its own, so there too this decides whether a
    key is doubled. -/
theorem keys_added_once_iff {source : Tree} {name : String} {base : Path}
    {languageFile : Option String} {r : Resource}
    (loaded : load source name base languageFile = .ok r) {t t' : Tree} {path : Path}
    {model : String} {u : Update} (updated : update t path (entriesFor r.fields model) = (t', .ok u)) :
    (∀ key ∈ u.added, key ∉ keysAt t path) ∧
    (∀ key ∉ keysAt t path, u.added.count key
      = (if key ∈ modelKeys then 1 else 0) + if key ∈ r.fields.map (·.name) then 1 else 0) ∧
    (u.added.Nodup ↔ ¬ Collides r.fields (keysAt t path)) ∧
    (InLayout t path → keysAt t' path = keysAt t path ++ u.added ∧
      ((keysAt t path).Nodup →
        ((keysAt t' path).Nodup ↔ ¬ Collides r.fields (keysAt t path)))) := by
  have sound := load_sound loaded
  have added := added_new updated
  rw [entries_keys] at added
  have fresh : ∀ key ∈ u.added, key ∉ keysAt t path := by
    intro key member
    rw [added] at member
    simpa using (List.mem_filter.1 member).2
  have once : u.added.Nodup ↔ ¬ Collides r.fields (keysAt t path) := by
    rw [added]
    exact new_keys_nodup_iff sound.distinct _
  refine ⟨fresh, fun key new => added ▸ new_keys_count sound.distinct new, once, fun layout => ?_⟩
  have behind := keys_added_behind (entries_identifiers model sound.names) layout updated
  refine ⟨behind, fun old => ?_⟩
  rw [behind, ← once, List.nodup_append]
  constructor
  · exact fun all => all.2.1
  · intro new
    refine ⟨old, new, ?_⟩
    rintro key known _ member rfl
    exact fresh key member known

def namedText : String := "[\x7b\"name\":\"model_name\"\x7d,\x7b\"name\":\"title\"\x7d]"

def namedResource : Resource :=
  ⟨⟨"post.json"⟩, [Field.ofName "model_name" .text, Field.ofName "title" .text], none⟩

theorem named_loaded : load (fileTree namedText) "post" .empty none = .ok namedResource :=
  ok_of_toOption (by decide +kernel)

def namedEntries : List Entry := entriesFor namedResource.fields "Post"

def namedBefore : List Entry := [("model_name", "A\n"), ("=> b", "y")]

theorem named_key_known :
    load (fileTree namedText) "post" .empty none = .ok namedResource ∧
    InLayout (postsTree (render namedBefore)) postsPath ∧
    ∃ t', update (postsTree (render namedBefore)) postsPath namedEntries
        = (t', .ok ⟨postsPath, ["model_plural", "title"]⟩) ∧
      keysAt (postsTree (render namedBefore)) postsPath = ["model_name", ",\n    "] ∧
      keysAt t' postsPath = ["model_name", ",\n    ", "model_plural", "title"] ∧
      (keysAt t' postsPath).Nodup := by
  have layout : InLayout (postsTree (render namedBefore)) postsPath := Or.inr ⟨_, posts_read _⟩
  have known : keysAt (postsTree (render namedBefore)) postsPath = ["model_name", ",\n    "] := by
    decide +kernel
  have new : missing (render namedBefore) namedEntries
      = [("model_plural", "Posts"), ("title", "Title")] := by
    decide +kernel
  have updated : update (postsTree (render namedBefore)) postsPath namedEntries
      = (postsTree (render (namedBefore ++ [("model_plural", "Posts"), ("title", "Title")])),
        .ok ⟨postsPath, ["model_plural", "title"]⟩) := by
    rw [update_present (posts_read _), new]
    exact Or.inr ⟨by simp, _, append_render _ _, posts_write _ _, rfl⟩
  obtain ⟨_, _, _, grows⟩ := keys_added_once_iff named_loaded updated
  obtain ⟨behind, once⟩ := grows layout
  rw [known] at behind once
  refine ⟨named_loaded, layout, _, updated, known, behind, (once (by decide)).2 ?_⟩
  rintro ⟨key, model, field, free⟩
  revert key
  decide

def doubledKeys : List String := ["model_name", "model_plural", "model_name", "title"]

/-- In a new file the model and the field write the same key, and whoever reads the array gets the
    label of the field for it. -/
theorem named_key_doubled :
    load (fileTree namedText) "post" .empty none = .ok namedResource ∧
    Tree.has ⟨[], []⟩ postsPath = false ∧ keysAt ⟨[], []⟩ postsPath = [] ∧
    ¬ doubledKeys.Nodup ∧ ∃ t' content,
      update ⟨[], []⟩ postsPath namedEntries = (t', .ok ⟨postsPath, doubledKeys⟩) ∧
      keysAt t' postsPath = doubledKeys ∧ t'.read? postsPath = some content ∧
      Php.groupPairs? content.toList = some namedEntries ∧
      Php.valueOf? namedEntries "model_name" = some "Model Name" := by
  have absent : Tree.has ⟨[], []⟩ postsPath = false := rfl
  have written : Tree.write ⟨[], []⟩ postsPath (render namedEntries)
      = ((Tree.write ⟨[], []⟩ postsPath (render namedEntries)).1, true) := rfl
  have updated := update_absent absent written
  have valid : IdentifierKeys namedEntries := by
    unfold IdentifierKeys
    decide
  exact ⟨named_loaded, absent, rfl, by decide, _, _, updated,
    keys_added_behind valid (Or.inl absent) updated, Tree.write_read written, render_pairs _,
    by decide +kernel⟩

end Resource

end BladeForm
