import BladeForm.Proofs.Language.Completion
import BladeForm.Proofs.Language.Reading

/-!
What a merge does to the labels of a group file. They are all kept, and the missing ones are
added, exactly if every key of the model opens a line where the array has it and nowhere else,
and the last closing bracket is one before which a pair may stand.
-/
namespace BladeForm.Language
open Text Php

def KeepsValues (old new : List (String × String)) : Prop :=
  ∀ key value, valueOf? old key = some value → valueOf? new key = some value

/-- Lines put before the last closing bracket come where a key may come, and the text around
    them has all values. -/
def HasRoom (content : List Char) (pairs : List (String × String)) : Prop :=
  ∃ before after earlier around, SplitsLast [']', ';'] content before after ∧
    Reader.start.run (opening before) = some ⟨earlier, .ready, .code⟩ ∧
    groupPairs? (opening before ++ ']' :: ';' :: after) = some around ∧ KeepsValues pairs around

/-- The lines tell which keys have values, and there is room for those that have none. -/
structure Mergeable (content : List Char) (pairs : List (String × String)) (es : List Entry) :
    Prop where
  told : ∀ e ∈ es, OpensLine e.1.toList content ↔ (valueOf? pairs e.1).isSome = true
  room : (∀ e ∈ es, (valueOf? pairs e.1).isSome = true) ∨ HasRoom content pairs

/-- The file is a group file that has lost no value and has one for every entry, and the keys
    that were added are those that had none. -/
def LabelsKept (pairs : List (String × String)) (es : List Entry) (t' : Tree) (path : Path)
    (added : List String) : Prop :=
  ∃ content' pairs', t'.read? path = some content' ∧ groupPairs? content'.toList = some pairs' ∧
    KeepsValues pairs pairs' ∧ (∀ e ∈ es, (valueOf? pairs' e.1).isSome = true) ∧
    ∀ key, key ∈ added ↔ key ∈ es.map (·.1) ∧ valueOf? pairs key = none

theorem valueOf?_between {earlier new later : List (String × String)} {key : String}
    (free : key ∉ new.map (·.1)) :
    valueOf? (earlier ++ (new ++ later)) key = valueOf? (earlier ++ later) key := by
  rw [valueOf?_append, valueOf?_append, valueOf?_none_iff.2 free, valueOf?_append, Option.or_none]

theorem groupPairs?_inserted {front : List Char} {earlier : List (String × String)}
    (opens : Reader.start.run front = some ⟨earlier, .ready, .code⟩) (new : List Entry)
    (tail : List Char) :
    groupPairs? (front ++ (new.flatMap lineChars ++ tail))
      = (Reader.finish? ⟨[], .ready, .code⟩ tail).map fun later => earlier ++ (new ++ later) := by
  have shifted : (⟨earlier ++ new, .ready, .code⟩ : Reader)
      = Reader.behind (earlier ++ new) ⟨[], .ready, .code⟩ := by
    simp [Reader.behind]
  rw [groupPairs?, Reader.finish?_append opens, Reader.finish?_append (run_lines new), shifted,
    Reader.finish?_behind]
  simp only [List.append_assoc]

theorem groupPairs?_opened {front : List Char} {earlier : List (String × String)}
    (opens : Reader.start.run front = some ⟨earlier, .ready, .code⟩) (tail : List Char) :
    groupPairs? (front ++ tail)
      = (Reader.finish? ⟨[], .ready, .code⟩ tail).map (earlier ++ ·) :=
  groupPairs?_inserted opens [] tail

theorem room_reads {content merged : String} {pairs : List (String × String)} {new : List Entry}
    (room : HasRoom content.toList pairs) (done : append content (entryLines new) = .ok merged) :
    ∃ earlier later, groupPairs? merged.toList = some (earlier ++ (new ++ later)) ∧
      KeepsValues pairs (earlier ++ later) := by
  obtain ⟨before, after, earlier, around, last, opens, read, keeps⟩ := room
  obtain ⟨before', after', last', split⟩ := append_splits done
  obtain ⟨rfl, rfl⟩ := splitsLast_unique last last'
  rw [groupPairs?_opened opens, Option.map_eq_some_iff] at read
  obtain ⟨later, closes, rfl⟩ := read
  refine ⟨earlier, later, ?_, keeps⟩
  rw [split, entryLines_toList, groupPairs?_inserted opens, closes]
  rfl

theorem comment_reads {pairs : List (String × String)} {spot : Spot} {star : Bool}
    {blanks : List Char} (blank : blanks.all isBlank = true) {new : List Entry}
    (valid : IdentifierKeys new) (quiet : ∀ e ∈ new, ¬ ['*', '/'] <:+: e.2.toList)
    (tail : List Char) :
    Reader.finish? ⟨pairs, spot, .block false⟩ (new.flatMap lineChars ++ ']' :: tail)
      = Reader.finish? ⟨pairs, spot, .block star⟩ (blanks ++ ']' :: tail) := by
  have free : '/' ∉ blanks := by
    intro member
    have := List.all_eq_true.1 blank _ member
    contradiction
  have behind : blanks ++ ']' :: tail = (blanks ++ [']']) ++ tail := by simp
  rw [Reader.finish?_append (lines_in_comment valid quiet), behind,
    Reader.finish?_append (Reader.comment_stays_at free (by decide) star)]
  rfl

theorem separator_read {r next : Reader} (head : List Char)
    (read : r.run (separatorFor head ++ ['\n']) = some next) :
    next.mode = .code ∨
      (∃ star, r = ⟨next.pairs, next.spot, .block star⟩ ∧ next.mode = .block false) ∨
      ∃ text, next.mode = .literal text false := by
  rw [Reader.run_append, Option.bind_eq_some_iff] at read
  obtain ⟨middle, separated, fed⟩ := read
  rw [Reader.run_single] at fed
  rcases Reader.step_feed fed with code | ⟨star, within, rfl⟩ | literal
  · exact Or.inl code
  · right
    left
    rcases separator_cases head with none | comma
    · rw [none] at separated
      cases separated
      exact ⟨star, by rw [← within], rfl⟩
    · rw [comma, Reader.run_single] at separated
      obtain ⟨star', same⟩ := Reader.step_comma separated within
      exact ⟨star', same, rfl⟩
  · exact Or.inr (Or.inr literal)

/-- If new lines leave a group file, they were read as pairs where there is room, or not at all. -/
theorem merge_reads {content merged : String} {pairs pairs' : List (String × String)} {e : Entry}
    {es : List Entry} (valid : IdentifierKeys (e :: es))
    (quiet : ∀ d ∈ e :: es, ¬ ['*', '/'] <:+: d.2.toList)
    (group : groupPairs? content.toList = some pairs)
    (done : append content (entryLines (e :: es)) = .ok merged)
    (read : groupPairs? merged.toList = some pairs') :
    pairs' = pairs ∨ ∃ before after earlier later,
      SplitsLast [']', ';'] content.toList before after ∧
      Reader.start.run (opening before) = some ⟨earlier, .ready, .code⟩ ∧
      groupPairs? (opening before ++ ']' :: ';' :: after) = some (earlier ++ later) ∧
      pairs' = earlier ++ (e :: es ++ later) := by
  obtain ⟨before, after, last, split⟩ := append_splits done
  obtain ⟨blanks, parts, blank⟩ := dropEnd_split isBlank before
  have old : content.toList = dropEnd isBlank before ++ (blanks ++ ']' :: ';' :: after) := by
    rw [← List.append_assoc, ← parts]
    exact last.1
  rw [split, entryLines_toList] at read
  obtain ⟨⟨earlier, spot, mode⟩, opens⟩ := Reader.finish?_some read
  obtain ⟨r, headRead⟩ := Reader.finish?_some (old ▸ group)
  have separated : r.run (separatorFor (dropEnd isBlank before) ++ ['\n'])
      = some ⟨earlier, spot, mode⟩ := by
    rw [opening, Reader.run_append, headRead] at opens
    exact opens
  have readOld := group
  have readNew := read
  rw [old, groupPairs?, Reader.finish?_append headRead] at readOld
  rw [groupPairs?, Reader.finish?_append opens] at readNew
  rcases separator_read _ separated with code | ⟨star, within, comment⟩ | ⟨text, literal⟩
  · right
    simp only at code
    subst mode
    rw [List.flatMap_cons, List.append_assoc] at readNew
    obtain ⟨_, line⟩ := Reader.finish?_some readNew
    have ready : spot = .ready := line_ready line
    subst spot
    rw [groupPairs?_inserted opens, Option.map_eq_some_iff] at read
    obtain ⟨later, closes, rfl⟩ := read
    exact ⟨before, after, earlier, later, last, opens,
      by rw [groupPairs?_opened opens, closes]; rfl, rfl⟩
  · left
    simp only at comment within
    subst mode
    subst r
    rw [comment_reads blank valid quiet, readOld] at readNew
    exact (Option.some.inj readNew).symm
  · simp only at literal
    subst mode
    rw [List.flatMap_cons, List.append_assoc, Reader.finish?,
      line_stuck (valid e List.mem_cons_self)] at readNew
    cases readNew

theorem added_iff {content key : String} {es : List Entry} (valid : IdentifierKeys es) :
    key ∈ (missing content es).map (·.1)
      ↔ key ∈ es.map (·.1) ∧ ¬ OpensLine key.toList content.toList := by
  simp only [List.mem_map, mem_missing]
  constructor
  · rintro ⟨e, ⟨member, absent⟩, rfl⟩
    exact ⟨⟨e, member, rfl⟩, fun line => absent ((identifier_found_iff (valid e member)).2 line)⟩
  · rintro ⟨⟨e, member, rfl⟩, noLine⟩
    exact ⟨e, ⟨member, fun found => noLine ((identifier_found_iff (valid e member)).1 found)⟩, rfl⟩

theorem told_iff_added {content : String} {pairs : List (String × String)} {es : List Entry}
    (valid : IdentifierKeys es) :
    (∀ e ∈ es, OpensLine e.1.toList content.toList ↔ (valueOf? pairs e.1).isSome = true) ↔
      ∀ key, key ∈ (missing content es).map (·.1)
        ↔ key ∈ es.map (·.1) ∧ valueOf? pairs key = none := by
  constructor
  · intro told key
    rw [added_iff valid]
    constructor
    · rintro ⟨member, noLine⟩
      obtain ⟨e, entry, rfl⟩ := List.mem_map.1 member
      rw [told e entry, Option.not_isSome_iff_eq_none] at noLine
      exact ⟨member, noLine⟩
    · rintro ⟨member, noValue⟩
      obtain ⟨e, entry, rfl⟩ := List.mem_map.1 member
      exact ⟨member, by rw [told e entry, noValue]; simp⟩
  · intro added e entry
    have member : e.1 ∈ es.map (·.1) := List.mem_map_of_mem entry
    have here := added e.1
    rw [added_iff valid] at here
    simp only [member, true_and] at here
    rw [← not_iff_not, here, Option.not_isSome_iff_eq_none]

theorem update_added {t t' : Tree} {path : Path} {content : String} {es : List Entry} {u : Update}
    (present : t.read? path = some content) (updated : update t path es = (t', .ok u)) :
    u = ⟨path, (missing content es).map (·.1)⟩ := by
  rcases (update_present present).1 updated with ⟨complete, _, rfl⟩ | ⟨_, _, _, _, rfl⟩
  · rw [complete]
    rfl
  · rfl

theorem mergeable_labels_kept {t t' : Tree} {path : Path} {content : String} {es : List Entry}
    {u : Update} {pairs : List (String × String)} (valid : IdentifierKeys es)
    (present : t.read? path = some content) (group : groupPairs? content.toList = some pairs)
    (updated : update t path es = (t', .ok u)) (mergeable : Mergeable content.toList pairs es) :
    LabelsKept pairs es t' path u.added := by
  have added := (told_iff_added valid).1 mergeable.told
  have reported : u.added = (missing content es).map (·.1) := by
    rw [update_added present updated]
  rw [← reported] at added
  rcases (update_present present).1 updated with
    ⟨complete, rfl, rfl⟩ | ⟨incomplete, merged, done, written, _⟩
  · have all : ∀ e ∈ es, (valueOf? pairs e.1).isSome = true := fun e member =>
      (mergeable.told e member).1
        ((identifier_found_iff (valid e member)).1 (missing_nil_iff.1 complete e member))
    exact ⟨content, pairs, present, group, fun _ _ held => held, all, added⟩
  · obtain ⟨e, new⟩ := List.exists_mem_of_ne_nil _ incomplete
    have newKey : e.1 ∈ u.added := reported ▸ List.mem_map_of_mem new
    rcases mergeable.room with complete | room
    · have := complete e (mem_missing.1 new).1
      rw [((added e.1).1 newKey).2] at this
      cases this
    · obtain ⟨earlier, later, read, keeps⟩ := room_reads room done
      have keepsAll : KeepsValues pairs (earlier ++ (missing content es ++ later)) := by
        intro key value held
        have old : key ∉ (missing content es).map (·.1) := by
          intro member
          rw [← reported, added key, held] at member
          cases member.2
        rw [valueOf?_between old]
        exact keeps key value held
      refine ⟨merged, _, Tree.write_read written, read, keepsAll, ?_, added⟩
      intro d member
      cases held : valueOf? pairs d.1 with
      | some value =>
        rw [keepsAll d.1 value held]
        rfl
      | none =>
        have newKey : d.1 ∈ (missing content es).map (·.1) :=
          reported ▸ (added d.1).2 ⟨List.mem_map_of_mem member, held⟩
        rw [Option.isSome_iff_ne_none, ne_eq, valueOf?_none_iff, not_not, List.map_append,
          List.map_append]
        exact List.mem_append_right _ (List.mem_append_left _ newKey)

theorem kept_labels_mergeable {t t' : Tree} {path : Path} {content : String} {es : List Entry}
    {u : Update} {pairs : List (String × String)} (valid : IdentifierKeys es)
    (quiet : ∀ e ∈ es, ¬ ['*', '/'] <:+: e.2.toList)
    (present : t.read? path = some content) (group : groupPairs? content.toList = some pairs)
    (updated : update t path es = (t', .ok u)) (kept : LabelsKept pairs es t' path u.added) :
    Mergeable content.toList pairs es := by
  obtain ⟨content', pairs', read, group', keeps, all, added⟩ := kept
  rw [update_added present updated] at added
  have told := (told_iff_added valid).2 added
  refine ⟨told, ?_⟩
  rcases (update_present present).1 updated with
    ⟨complete, _, _⟩ | ⟨incomplete, merged, done, written, _⟩
  · left
    intro e member
    exact (told e member).1
      ((identifier_found_iff (valid e member)).1 (missing_nil_iff.1 complete e member))
  · right
    rw [Tree.write_read written, Option.some.injEq] at read
    subst content'
    obtain ⟨e, new⟩ := List.exists_mem_of_ne_nil _ incomplete
    have noValue := ((added e.1).1 (List.mem_map_of_mem new)).2
    obtain ⟨first, rest, same⟩ := List.exists_cons_of_ne_nil incomplete
    have within {d : Entry} (member : d ∈ first :: rest) : d ∈ es :=
      (mem_missing.1 (same ▸ member)).1
    rw [same] at done
    rcases merge_reads (fun d member => valid d (within member))
        (fun d member => quiet d (within member)) group done group' with
      unread | ⟨before, after, earlier, later, last, opens, around, split⟩
    · have := all e (mem_missing.1 new).1
      rw [unread, noValue] at this
      cases this
    · refine ⟨before, after, earlier, _, last, opens, around, ?_⟩
      intro key value held
      have old : key ∉ (first :: rest).map (·.1) := by
        intro member
        rw [← same, added key, held] at member
        cases member.2
      rw [← valueOf?_between old, ← split]
      exact keeps key value held

/-- An update of a group file keeps every label and adds the missing ones if the lines tell which
    these are and the last closing bracket leaves room for them; and only then, unless a label
    ends a comment itself. -/
theorem labels_kept_when_mergeable {t t' : Tree} {path : Path} {content model : String}
    {fields : List Field} {u : Update} {pairs : List (String × String)}
    (names : ∀ f ∈ fields, Name.isIdentifier f.name = true)
    (present : t.read? path = some content) (group : groupPairs? content.toList = some pairs)
    (updated : update t path (entriesFor fields model) = (t', .ok u)) :
    (Mergeable content.toList pairs (entriesFor fields model) →
      LabelsKept pairs (entriesFor fields model) t' path u.added) ∧
    ((∀ e ∈ entriesFor fields model, ¬ ['*', '/'] <:+: e.2.toList) →
      LabelsKept pairs (entriesFor fields model) t' path u.added →
      Mergeable content.toList pairs (entriesFor fields model)) := by
  have valid := entries_identifiers model names
  constructor
  · exact mergeable_labels_kept valid present group updated
  · intro quiet
    exact kept_labels_mergeable valid quiet present group updated

def commentedHead : String :=
  "<?php return [ // a\n'model_name' => 'A ];', 'b' => 'it\\'s',\n'model_plural'\n=> 'C' /* d */"

def commentedPairs : List (String × String) :=
  [("model_name", "A ];"), ("b", "it's"), ("model_plural", "C")]

def titleEntries : List Entry := entriesFor [Field.ofName "title" .text] "Post"

theorem commented_file_mergeable :
    Mergeable (commentedHead ++ "\n];\n").toList commentedPairs titleEntries := by
  have valid : IdentifierKeys titleEntries := entries_identifiers "Post" (by decide)
  constructor
  · intro e member
    rw [← identifier_found_iff (valid e member)]
    revert e
    decide +kernel
  · right
    exact ⟨commentedHead.toList ++ ['\n'], ['\n'], commentedPairs, commentedPairs,
      (splitLast?_iff (by simp)).1 (by decide +kernel), by decide +kernel, by decide +kernel,
      fun _ _ held => held⟩

theorem commented_file_kept :
    (∀ f ∈ [Field.ofName "title" .text], Name.isIdentifier f.name = true) ∧
    (postsTree (commentedHead ++ "\n];\n")).read? postsPath
      = some (commentedHead ++ "\n];\n") ∧
    groupPairs? (commentedHead ++ "\n];\n").toList = some commentedPairs ∧
    update (postsTree (commentedHead ++ "\n];\n")) postsPath titleEntries
      = (postsTree (commentedHead ++ ",\n    'title' => 'Title',\n];\n"),
        .ok ⟨postsPath, ["title"]⟩) ∧
    LabelsKept commentedPairs titleEntries
      (postsTree (commentedHead ++ ",\n    'title' => 'Title',\n];\n")) postsPath ["title"] := by
  have names : ∀ f ∈ [Field.ofName "title" .text], Name.isIdentifier f.name = true := by decide
  have group : groupPairs? (commentedHead ++ "\n];\n").toList = some commentedPairs := by
    rw [String.toList_append]
    decide +kernel
  have new : missing (commentedHead ++ "\n];\n") titleEntries = [("title", "Title")] := by
    decide +kernel
  have merged : append (commentedHead ++ "\n];\n") (entryLines [("title", "Title")])
      = .ok (commentedHead ++ ",\n    'title' => 'Title',\n];\n") := by
    decide +kernel
  have updated : update (postsTree (commentedHead ++ "\n];\n")) postsPath titleEntries
      = (postsTree (commentedHead ++ ",\n    'title' => 'Title',\n];\n"),
        .ok ⟨postsPath, ["title"]⟩) := by
    rw [update_present (posts_read _), new]
    exact Or.inr ⟨by simp, _, merged, posts_write _ _, rfl⟩
  exact ⟨names, posts_read _, group, updated,
    (labels_kept_when_mergeable names (posts_read _) group updated).1 commented_file_mergeable⟩

def oneLineContent : String :=
  "<?php return ['model_name' => 'A', 'model_plural' => 'B', 'title' => 'C'];\n"

def overriddenContent : String :=
  "<?php return ['model_name' => 'A', 'model_plural' => 'B', 'title' => 'C',\n"
    ++ "    'model_name' => 'Post',\n    'model_plural' => 'Posts',\n    'title' => 'Title',\n];\n"

/-- Keys that open no line are added again, and the new labels override the old ones. -/
theorem one_line_file_overridden :
    (postsTree oneLineContent).read? postsPath = some oneLineContent ∧
    groupPairs? oneLineContent.toList
      = some [("model_name", "A"), ("model_plural", "B"), ("title", "C")] ∧
    update (postsTree oneLineContent) postsPath titleEntries = (postsTree overriddenContent,
      .ok ⟨postsPath, ["model_name", "model_plural", "title"]⟩) ∧
    groupPairs? overriddenContent.toList = some [("model_name", "A"), ("model_plural", "B"),
      ("title", "C"), ("model_name", "Post"), ("model_plural", "Posts"), ("title", "Title")] ∧
    ¬ LabelsKept [("model_name", "A"), ("model_plural", "B"), ("title", "C")] titleEntries
      (postsTree overriddenContent) postsPath ["model_name", "model_plural", "title"] := by
  have new : missing oneLineContent titleEntries = titleEntries := by decide +kernel
  have merged : append oneLineContent (entryLines titleEntries) = .ok overriddenContent := by
    decide +kernel
  refine ⟨posts_read _, by decide +kernel, ?_, by decide +kernel, ?_⟩
  · rw [update_present (posts_read _), new]
    exact Or.inr ⟨by simp [titleEntries, entriesFor], _, merged, posts_write _ _, rfl⟩
  · rintro ⟨_, _, _, _, _, _, added⟩
    cases ((added "title").1 (by decide)).2

end BladeForm.Language
