import BladeForm.Proofs.Tree.Files

/-!
Replacing what a file holds. Every path leads where it led, all other files read as before, and
putting the old content back gives the old tree.
-/
namespace BladeForm

theorem setEntry_same {name : String} {n : Node} {es : Entries} (found : es.lookup name = some n) :
    setEntry name n es = es := by
  induction es with
  | nil => cases found
  | cons e es ih =>
    obtain ⟨k, old⟩ := e
    rw [lookup_cons_if] at found
    rw [setEntry]
    by_cases same : name = k
    · subst k
      rw [if_pos rfl] at found ⊢
      rw [Option.some.inj found]
    · rw [if_neg same] at found
      rw [if_neg (Ne.symm same), ih found]

theorem setEntry_again (name : String) (first second : Node) (es : Entries) :
    setEntry name second (setEntry name first es) = setEntry name second es := by
  induction es with
  | nil => simp [setEntry]
  | cons e es ih =>
    obtain ⟨k, old⟩ := e
    by_cases same : k = name
    · simp [setEntry, same]
    · simp [setEntry, same, ih]

namespace Node

theorem descend?_replaced {n old : Node} {loc : Location} (there : n.descend? loc = some old)
    (new : Node) : (n.put new loc).descend? loc = some new := by
  induction loc generalizing n with
  | nil => rfl
  | cons name rest ih =>
    cases n with
    | file c => cases there
    | folder es =>
      rw [descend?_cons, Option.bind_eq_some_iff] at there
      obtain ⟨c, found, below⟩ := there
      rw [put_present new rest found, descend?_cons, lookup_setEntry, if_pos rfl]
      exact ih below

theorem put_same {n m : Node} {loc : Location} (there : n.descend? loc = some m) :
    n.put m loc = n := by
  induction loc generalizing n with
  | nil =>
    cases there
    rfl
  | cons name rest ih =>
    cases n with
    | file c => cases there
    | folder es =>
      rw [descend?_cons, Option.bind_eq_some_iff] at there
      obtain ⟨c, found, below⟩ := there
      rw [put_present m rest found, ih below, setEntry_same found]

theorem put_again {n old : Node} {loc : Location} (there : n.descend? loc = some old)
    (first second : Node) : (n.put first loc).put second loc = n.put second loc := by
  induction loc generalizing n with
  | nil => rfl
  | cons name rest ih =>
    cases n with
    | file c => cases there
    | folder es =>
      rw [descend?_cons, Option.bind_eq_some_iff] at there
      obtain ⟨c, found, below⟩ := there
      have now : (setEntry name (c.put first rest) es).lookup name = some (c.put first rest) := by
        rw [lookup_setEntry, if_pos rfl]
      rw [put_present first rest found, put_present second rest now, put_present second rest found,
        setEntry_again, ih below]

end Node

namespace Tree

theorem eq_of_root {a b : Tree} (root : a.root = b.root) (current : a.current = b.current) :
    a = b := by
  obtain ⟨es, here⟩ := a
  obtain ⟨fs, there⟩ := b
  cases root
  cases current
  rfl

section
variable {t : Tree} {loc : Location} {content : Content}
  (file : t.entryAt? loc = some (some content)) (other : Content)
include file

theorem root_replaced : (t.put loc (.file other)).root = t.root.put (.file other) loc := by
  cases loc with
  | nil => cases file
  | cons name rest => exact root_put t name rest _

theorem entryAt?_replaced : (t.put loc (.file other)).entryAt? loc = some (some other) := by
  rw [entryAt?_file, node?, root_replaced file other]
  exact Node.descend?_replaced (entryAt?_file.1 file) _

theorem replaced_noFolder : t.isFolderAt loc = false := by
  rw [isFolderAt, entryAt?_file.1 file]
  rfl

theorem entryAt?_elsewhere {l : Location} (apart : l ≠ loc) :
    (t.put loc (.file other)).entryAt? l = t.entryAt? l :=
  entryAt?_put (Node.bare_file other) (replaced_noFolder file) apart

theorem put_back : (t.put loc (.file other)).put loc (.file content) = t := by
  have there := entryAt?_file.1 file
  refine eq_of_root ?_ (by rw [current_put, current_put])
  rw [root_replaced (entryAt?_replaced file other), root_replaced file,
    Node.put_again there, Node.put_same there]

omit other in
theorem put_present : t.put loc (.file content) = t := by
  refine eq_of_root ?_ (current_put t loc _)
  rw [root_replaced file, Node.put_same (entryAt?_file.1 file)]

theorem replaced_grows :
    Grows t (t.put loc (.file other)) ∧ Grows (t.put loc (.file other)) t := by
  constructor
  · exact grows_put _ (replaced_noFolder file)
  · have back := grows_put (.file content) (replaced_noFolder (entryAt?_replaced file other))
    rwa [put_back file other] at back

theorem place?_replaced (p : Path) : (t.put loc (.file other)).place? p = t.place? p := by
  obtain ⟨grows, back⟩ := replaced_grows file other
  refine Option.ext fun l => ?_
  exact ⟨place?_grows back, place?_grows grows⟩

theorem has_replaced (p : Path) : (t.put loc (.file other)).has p = t.has p := by
  obtain ⟨grows, back⟩ := replaced_grows file other
  exact Bool.eq_iff_iff.2 ⟨has_grows back, has_grows grows⟩

theorem read?_replaced {p : Path} (apart : t.place? p ≠ some loc) :
    (t.put loc (.file other)).read? p = t.read? p := by
  refine Option.ext fun s => ?_
  rw [read?_iff, read?_iff, place?_replaced file other]
  refine exists_congr fun l => and_congr_right fun place => ?_
  rw [entryAt?_elsewhere file other]
  rintro rfl
  exact apart place

theorem isFile_replaced {p : Path} (apart : t.place? p ≠ some loc) :
    (t.put loc (.file other)).isFile p = t.isFile p := by
  rw [Bool.eq_iff_iff, isFile_iff, isFile_iff, place?_replaced file other]
  refine exists_congr fun l => exists_congr fun c => and_congr_right fun place => ?_
  rw [entryAt?_elsewhere file other]
  rintro rfl
  exact apart place

end

end Tree

end BladeForm
