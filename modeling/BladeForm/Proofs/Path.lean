import BladeForm.Path
import Mathlib.Data.List.Basic
import Mathlib.Data.List.TakeDrop

/-!
Paths as lists of segments. Joining the segments gives the text again, a joined name is the last
segment, and the parent of a path is a beginning of its text that has the same segments before
the last name, but for those that lead nowhere.
-/
namespace BladeForm

namespace Text
variable {p : Char → Bool}

theorem splitAtEach_ne_nil (p : Char → Bool) (cs : List Char) : splitAtEach p cs ≠ [] := by
  cases cs with
  | nil => simp [splitAtEach]
  | cons c cs =>
    rw [splitAtEach]
    split
    · simp
    · split <;> simp

theorem splitAtEach_separator {c : Char} (sep : p c = true) (cs : List Char) :
    splitAtEach p (c :: cs) = [] :: splitAtEach p cs := by
  rw [splitAtEach]
  split
  · next none => exact absurd none (splitAtEach_ne_nil p cs)
  · next piece pieces split => rw [if_pos sep, split]

theorem splitAtEach_other {c : Char} (other : p c = false) {cs piece : List Char}
    {pieces : List (List Char)} (split : splitAtEach p cs = piece :: pieces) :
    splitAtEach p (c :: cs) = (c :: piece) :: pieces := by
  simp [splitAtEach, split, other]

theorem splitAtEach_append {c : Char} (sep : p c = true) (xs ys : List Char) :
    splitAtEach p (xs ++ c :: ys) = splitAtEach p xs ++ splitAtEach p ys := by
  induction xs with
  | nil => rw [List.nil_append, splitAtEach_separator sep, splitAtEach, List.singleton_append]
  | cons x xs ih =>
    rw [List.cons_append]
    cases here : p x with
    | true => rw [splitAtEach_separator here, splitAtEach_separator here, ih, List.cons_append]
    | false =>
      obtain ⟨piece, pieces, split⟩ := List.exists_cons_of_ne_nil (splitAtEach_ne_nil p xs)
      rw [split] at ih
      rw [splitAtEach_other here ih, splitAtEach_other here split]
      rfl

theorem splitAtEach_free {xs : List Char} (free : ∀ x ∈ xs, p x = false) :
    splitAtEach p xs = [xs] := by
  induction xs with
  | nil => rfl
  | cons x xs ih =>
    exact splitAtEach_other (free x List.mem_cons_self)
      (ih fun y member => free y (List.mem_cons_of_mem x member))

theorem splitAtEach_joinWith {c : Char} (sep : p c = true) {pieces : List (List Char)}
    (ne : pieces ≠ []) (free : ∀ piece ∈ pieces, ∀ x ∈ piece, p x = false) :
    splitAtEach p (joinWith [c] pieces) = pieces := by
  induction pieces with
  | nil => contradiction
  | cons piece rest ih =>
    have first := splitAtEach_free (free piece List.mem_cons_self)
    cases rest with
    | nil => exact first
    | cons next rest =>
      have later := ih (by simp) fun q member => free q (List.mem_cons_of_mem piece member)
      rw [joinWith, List.append_assoc, List.singleton_append, splitAtEach_append sep, first, later]
      rfl

theorem joinWith_splitAtEach {c : Char} {cs : List Char} (only : ∀ x ∈ cs, p x = true → x = c) :
    joinWith [c] (splitAtEach p cs) = cs := by
  induction cs with
  | nil => rfl
  | cons x xs ih =>
    obtain ⟨first, others⟩ := List.forall_mem_cons.1 only
    obtain ⟨piece, pieces, split⟩ := List.exists_cons_of_ne_nil (splitAtEach_ne_nil p xs)
    cases here : p x with
    | true =>
      rw [splitAtEach_separator here, split, joinWith, ← split, ih others, first here]
      rfl
    | false =>
      have later := ih others
      rw [splitAtEach_other here split]
      rw [split] at later
      cases pieces with
      | nil => simpa [joinWith] using later
      | cons next rest => simpa [joinWith] using later

theorem mem_splitAtEach {cs piece : List Char} (member : piece ∈ splitAtEach p cs) :
    ∀ x ∈ piece, p x = false := by
  induction cs generalizing piece with
  | nil => simp_all [splitAtEach]
  | cons c cs ih =>
    obtain ⟨first, pieces, split⟩ := List.exists_cons_of_ne_nil (splitAtEach_ne_nil p cs)
    cases here : p c with
    | true =>
      rw [splitAtEach_separator here, List.mem_cons] at member
      rcases member with rfl | later
      · simp
      · exact ih later
    | false =>
      rw [splitAtEach_other here split, List.mem_cons] at member
      rcases member with rfl | later
      · intro x inside
        rcases List.mem_cons.1 inside with rfl | rest
        · exact here
        · exact ih (by simp [split]) x rest
      · exact ih (by simp [split, later])

theorem joinWith_append (sep : List Char) {xs ys : List (List Char)} (before : xs ≠ [])
    (after : ys ≠ []) : joinWith sep (xs ++ ys) = joinWith sep xs ++ sep ++ joinWith sep ys := by
  induction xs with
  | nil => contradiction
  | cons x xs ih =>
    cases xs with
    | nil =>
      obtain ⟨y, rest, rfl⟩ := List.exists_cons_of_ne_nil after
      rfl
    | cons next rest =>
      rw [List.cons_append, List.cons_append, joinWith, joinWith, ← List.cons_append,
        ih (List.cons_ne_nil next rest)]
      simp only [List.append_assoc]

theorem joinWith_begins (sep : List Char) (xs ys : List (List Char)) :
    joinWith sep xs <+: joinWith sep (xs ++ ys) := by
  by_cases before : xs = []
  · rw [before]
    exact List.nil_prefix
  · by_cases after : ys = []
    · exact ⟨[], by rw [after, List.append_nil, List.append_nil]⟩
    · rw [joinWith_append sep before after, List.append_assoc]
      exact List.prefix_append _ _

end Text

namespace Path
open Text

theorem isSeparator_iff (c : Char) : isSeparator c = true ↔ c = '/' := by
  simp [isSeparator]

def Start.segments : Start → List (List Char)
  | .root => [[]]
  | .here => [['.']]
  | .bare => []

theorem start_silent (start : Start) : ∀ s ∈ start.segments, isSilent s = true := by
  cases start <;> simp [Start.segments, isSilent]

theorem root_iff {p : Path} : p.start = .root ↔ p.isAbsolute = true := by
  rw [start]
  split_ifs with absolute here
  · simp [absolute]
  · simp [absolute]
  · simp [absolute]

theorem root_text {p : Path} (root : p.start = .root) :
    ∃ rest, p.text.toList = '/' :: rest ∧ p.body = splitAtEach isSeparator rest := by
  have absolute := root_iff.1 root
  rw [isAbsolute, decide_eq_true_eq, List.head?_eq_some_iff] at absolute
  obtain ⟨rest, text⟩ := absolute
  refine ⟨rest, text, ?_⟩
  rw [body, root, segments, text, splitAtEach_separator rfl]
  rfl

theorem here_segments {p : Path} (here : p.start = .here) : p.segments = ['.'] :: p.body := by
  have first : p.segments.head? = some ['.'] := by
    rw [start] at here
    split_ifs at here with absolute dot
    exact dot
  obtain ⟨rest, split⟩ := List.head?_eq_some_iff.1 first
  rw [body, here, split]
  rfl

theorem bare_segments {p : Path} (bare : p.start = .bare) : p.segments = p.body := by
  rw [body, bare]

theorem segments_start (p : Path) : p.segments = p.start.segments ++ p.body := by
  cases start : p.start with
  | root =>
    obtain ⟨rest, text, body⟩ := root_text start
    rw [body, segments, text, splitAtEach_separator rfl]
    rfl
  | here => exact here_segments start
  | bare => exact bare_segments start

theorem ofParts_root (body : List (List Char)) :
    (ofParts .root body).text.toList = '/' :: joinWith ['/'] body := String.toList_ofList

theorem ofParts_here (body : List (List Char)) :
    (ofParts .here body).text.toList = joinWith ['/'] (['.'] :: body) := by
  cases body with
  | nil => rfl
  | cons s rest => exact String.toList_ofList

theorem ofParts_bare (body : List (List Char)) :
    (ofParts .bare body).text.toList = joinWith ['/'] body := String.toList_ofList

theorem ofParts_body (p : Path) : (ofParts p.start p.body).text.toList = p.text.toList := by
  have only : ∀ {cs : List Char}, ∀ c ∈ cs, isSeparator c = true → c = '/' :=
    fun c _ => (isSeparator_iff c).1
  have joined : joinWith ['/'] p.segments = p.text.toList := joinWith_splitAtEach only
  cases start : p.start with
  | root =>
    obtain ⟨rest, text, body⟩ := root_text start
    rw [ofParts_root, body, joinWith_splitAtEach only, text]
  | here => rw [ofParts_here, ← here_segments start, joined]
  | bare => rw [ofParts_bare, ← bare_segments start, joined]

theorem ofParts_begins (start : Start) (xs ys : List (List Char)) :
    (ofParts start xs).text.toList <+: (ofParts start (xs ++ ys)).text.toList := by
  cases start with
  | root =>
    rw [ofParts_root, ofParts_root]
    exact (List.prefix_cons_inj '/').2 (joinWith_begins _ xs ys)
  | here =>
    rw [ofParts_here, ofParts_here]
    exact joinWith_begins _ (['.'] :: xs) ys
  | bare =>
    rw [ofParts_bare, ofParts_bare]
    exact joinWith_begins _ xs ys

def steps (segments : List (List Char)) : List (List Char) := segments.filter (!isSilent ·)

theorem steps_append (xs ys : List (List Char)) : steps (xs ++ ys) = steps xs ++ steps ys :=
  List.filter_append ..

theorem steps_silent {xs : List (List Char)} (silent : ∀ s ∈ xs, isSilent s = true) :
    steps xs = [] := by
  simpa [steps] using silent

theorem join_relative (p : Path) {q : String} (relative : q.toList.head? ≠ some '/') :
    ∃ before, (p.join q).segments = before ++ segments ⟨q⟩ ∧ steps before = steps p.segments := by
  simp only [join, relative, ↓reduceIte]
  split
  · next closed =>
    rcases List.eq_nil_or_concat p.text.toList with empty | ⟨before, c, ends⟩
    · refine ⟨[], by simp [segments, empty], ?_⟩
      simp [segments, empty, splitAtEach, steps, isSilent]
    · rw [ends, List.concat_eq_append, List.getLast?_concat, Option.all_some,
        isSeparator_iff] at closed
      subst c
      have ended : p.segments = splitAtEach isSeparator before ++ [[]] := by
        rw [segments, ends, List.concat_eq_append, splitAtEach_append rfl, splitAtEach]
      refine ⟨splitAtEach isSeparator before, ?_, ?_⟩
      · rw [segments, String.toList_append, ends, List.concat_eq_append, List.append_assoc,
          List.singleton_append, splitAtEach_append rfl, segments]
      · have last : steps [[]] = [] := rfl
        rw [ended, steps_append, last, List.append_nil]
  · refine ⟨splitAtEach isSeparator p.text.toList, ?_, rfl⟩
    rw [segments, String.toList_append, String.toList_append, List.append_assoc]
    exact splitAtEach_append rfl _ q.toList

theorem join_steps (p : Path) {q : String} (free : '/' ∉ q.toList) :
    ∃ before, (p.join q).segments = before ++ [q.toList] ∧ steps before = steps p.segments := by
  have whole : segments ⟨q⟩ = [q.toList] := by
    refine splitAtEach_free fun x member => ?_
    rw [← Bool.not_eq_true, isSeparator_iff]
    rintro rfl
    exact free member
  have relative : q.toList.head? ≠ some '/' := fun first => free (List.mem_of_head? first)
  rw [← whole]
  exact join_relative p relative

theorem join_segments (p : Path) {q : String} (free : '/' ∉ q.toList) :
    ∃ before, (p.join q).segments = before ++ [q.toList] := by
  obtain ⟨before, split, _⟩ := join_steps p free
  exact ⟨before, split⟩

theorem join_isAbsolute (p : Path) {q : String} (relative : q.toList.head? ≠ some '/') :
    (p.join q).isAbsolute = p.isAbsolute := by
  have first : ∀ {xs ys : List Char}, ys.head? ≠ some '/' →
      ((xs ++ ys).head? = some '/' ↔ xs.head? = some '/') := by
    intro xs ys other
    cases xs with
    | nil => simp [other]
    | cons x xs => simp
  simp only [join, relative, ↓reduceIte, isAbsolute, decide_eq_decide]
  split
  · rw [String.toList_append]
    exact first relative
  · next opened =>
    cases text : p.text.toList with
    | nil => simp [text] at opened
    | cons x xs => simp [String.toList_append, text]

theorem steps_dropWhile (xs : List (List Char)) : steps (xs.dropWhile isSilent) = steps xs := by
  have silent : steps (xs.takeWhile isSilent) = [] :=
    steps_silent fun s member => List.all_eq_true.1 List.all_takeWhile s member
  conv_rhs => rw [← @List.takeWhile_append_dropWhile _ isSilent xs, steps_append, silent]
  rfl

theorem steps_reverse (xs : List (List Char)) : steps xs.reverse = (steps xs).reverse :=
  List.filter_reverse ..

theorem steps_ofParts (start : Start) {body : List (List Char)}
    (free : ∀ s ∈ body, ∀ x ∈ s, isSeparator x = false) :
    steps (ofParts start body).segments = steps body := by
  have empty : steps [[]] = [] := rfl
  have split : steps (splitAtEach isSeparator (joinWith ['/'] body)) = steps body := by
    cases body with
    | nil => rfl
    | cons s rest => rw [splitAtEach_joinWith rfl (by simp) free]
  cases start with
  | root =>
    rw [segments, ofParts_root, splitAtEach_separator rfl]
    exact split
  | here =>
    have dot : ∀ s ∈ ['.'] :: body, ∀ x ∈ s, isSeparator x = false := by
      simpa [isSeparator] using free
    rw [segments, ofParts_here, splitAtEach_joinWith rfl (by simp) dot]
    rfl
  | bare => rw [segments, ofParts_bare, split]

theorem significant_named {p : Path} {before : List (List Char)} {name : List Char}
    (split : p.segments = before ++ [name]) (named : isSilent name = false) :
    ∃ inner, p.body = inner ++ [name] ∧ p.significant = inner ++ [name] ∧
      before = p.start.segments ++ inner := by
  have parts := segments_start p
  rw [split] at parts
  rcases List.eq_nil_or_concat p.body with empty | ⟨inner, last, ends⟩
  · -- the name would be part of the start
    rw [empty, List.append_nil] at parts
    have silent := start_silent p.start name (by simp [← parts])
    simp [silent] at named
  · rw [List.concat_eq_append] at ends
    rw [ends, ← List.append_assoc] at parts
    obtain ⟨init, same⟩ := List.append_inj' parts rfl
    cases same
    exact ⟨inner, ends, by simp [significant, ends, named], init⟩

theorem fileName?_named {p : Path} {before : List (List Char)} {name : List Char}
    (split : p.segments = before ++ [name]) (named : isSilent name = false)
    (downward : isUpward name = false) : p.fileName? = some name := by
  obtain ⟨inner, _, stops, _⟩ := significant_named split named
  simp [fileName?, stops, downward]

theorem significant_rest (p : Path) :
    ∃ rest, p.body = p.significant ++ rest ∧ ∀ s ∈ rest, isSilent s = true := by
  refine ⟨(p.body.reverse.takeWhile isSilent).reverse, ?_, ?_⟩
  · rw [significant, ← List.reverse_append, List.takeWhile_append_dropWhile, List.reverse_reverse]
  · intro s member
    exact List.all_eq_true.1 List.all_takeWhile s (List.mem_reverse.1 member)

/-- The parent of a path is a beginning of its text, and the steps to it are the steps before the
    last name. -/
theorem parent?_inner {p : Path} {inner : List (List Char)} {name : List Char}
    (stops : p.significant = inner ++ [name]) :
    ∃ q, p.parent? = some q ∧ q.text.toList <+: p.text.toList ∧
      (q.text = "" → p.isAbsolute = false) ∧
      steps q.segments = steps (p.start.segments ++ inner) := by
  obtain ⟨tail, kept⟩ : ∃ tail, inner = (inner.reverse.dropWhile isSilent).reverse ++ tail := by
    refine ⟨(inner.reverse.takeWhile isSilent).reverse, ?_⟩
    rw [← List.reverse_append, List.takeWhile_append_dropWhile, List.reverse_reverse]
  obtain ⟨rest, body, _⟩ := significant_rest p
  rw [stops] at body
  refine ⟨ofParts p.start (inner.reverse.dropWhile isSilent).reverse, ?_, ?_, ?_, ?_⟩
  · simp [parent?, stops]
  · rw [← ofParts_body p, body]
    conv_rhs => rw [kept, List.append_assoc, List.append_assoc]
    exact ofParts_begins _ _ _
  · intro empty
    rw [← Bool.not_eq_true, ← root_iff]
    intro root
    rw [root, ← String.toList_inj, ofParts_root] at empty
    simp at empty
  · rw [steps_ofParts, steps_reverse, steps_dropWhile, steps_reverse, List.reverse_reverse,
      steps_append, steps_silent (start_silent p.start), List.nil_append]
    intro s member
    have inside : s ∈ p.segments := by
      rw [segments_start, body, kept]
      simp [List.mem_append, member]
    exact mem_splitAtEach inside

theorem parent?_named {p : Path} {before : List (List Char)} {name : List Char}
    (split : p.segments = before ++ [name]) (named : isSilent name = false) :
    ∃ q, p.parent? = some q ∧ q.text.toList <+: p.text.toList ∧
      (q.text = "" → p.isAbsolute = false) ∧ steps q.segments = steps before := by
  obtain ⟨inner, _, stops, init⟩ := significant_named split named
  rw [init]
  exact parent?_inner stops

theorem significant_last {p : Path} {inner : List (List Char)} {name : List Char}
    (stops : p.significant = inner ++ [name]) : isSilent name = false := by
  have reversed : p.body.reverse.dropWhile isSilent = name :: inner.reverse := by
    rw [← List.reverse_inj, List.reverse_cons, List.reverse_reverse]
    exact stops
  have first := List.head?_dropWhile_not isSilent p.body.reverse
  simpa [reversed] using first

theorem parent?_above {p q : Path} (parent : p.parent? = some q) (some : q.text ≠ "") :
    ∃ before after, p.segments = before ++ after ∧ (∃ s ∈ after, isSilent s = false) ∧
      q.text.toList <+: p.text.toList ∧ steps q.segments = steps before := by
  rcases List.eq_nil_or_concat p.significant with none | ⟨inner, name, stops⟩
  · rw [parent?, none] at parent
    simp only [List.reverse_nil, Option.ite_none_right_eq_some] at parent
    rw [← Option.some.inj parent.2] at some
    exact absurd rfl some
  · rw [List.concat_eq_append] at stops
    obtain ⟨_, same, begins, _, steps⟩ := parent?_inner stops
    rw [parent] at same
    cases same
    obtain ⟨rest, body, _⟩ := significant_rest p
    refine ⟨p.start.segments ++ inner, name :: rest, ?_, ⟨name, List.mem_cons_self,
      significant_last stops⟩, begins, steps⟩
    rw [segments_start, body, stops]
    simp only [List.append_assoc, List.singleton_append]

theorem steps_begin {xs ys : List (List Char)} (begins : xs <+: steps ys) :
    ∃ zs, zs <+: ys ∧ steps zs = xs := by
  induction ys generalizing xs with
  | nil => exact ⟨[], List.nil_prefix, (List.prefix_nil.1 begins).symm⟩
  | cons y ys ih =>
    cases silent : isSilent y with
    | true =>
      have skip : ∀ zs, steps (y :: zs) = steps zs := fun zs => by simp [steps, silent]
      rw [skip] at begins
      obtain ⟨zs, first, same⟩ := ih begins
      exact ⟨y :: zs, (List.prefix_cons_inj y).2 first, (skip zs).trans same⟩
    | false =>
      have step : ∀ zs, steps (y :: zs) = y :: steps zs := fun zs => by simp [steps, silent]
      rw [step] at begins
      cases xs with
      | nil => exact ⟨[], List.nil_prefix, rfl⟩
      | cons x xs =>
        obtain ⟨rfl, later⟩ := List.cons_prefix_cons.1 begins
        obtain ⟨zs, first, same⟩ := ih later
        exact ⟨x :: zs, (List.prefix_cons_inj x).2 first, by rw [step, same]⟩

theorem splitExtension_dotted {stem ext : List Char} (some : stem ≠ []) (free : '.' ∉ ext) :
    splitExtension (stem ++ '.' :: ext) = (stem, .some ext) := by
  obtain ⟨c, cs, reversed⟩ := List.exists_cons_of_ne_nil
    (fun none => some (List.reverse_eq_nil_iff.1 none) : stem.reverse ≠ [])
  have back : cs.reverse ++ [c] = stem := by
    rw [← List.reverse_cons, ← reversed, List.reverse_reverse]
  have outside : ∀ x ∈ ext.reverse, decide (x ≠ '.') = true := by
    intro x member
    rw [decide_eq_true_eq]
    rintro rfl
    exact free (List.mem_reverse.1 member)
  have span : (stem ++ '.' :: ext).reverse.span (· ≠ '.') = (ext.reverse, '.' :: c :: cs) := by
    rw [List.reverse_append, List.reverse_cons, List.append_assoc, List.singleton_append, reversed,
      List.span_eq_takeWhile_dropWhile, List.takeWhile_append_of_pos outside,
      List.dropWhile_append_of_pos outside]
    simp
  rw [splitExtension, span]
  simp [back]

theorem splitExtension_plain {name : List Char} (plain : (splitExtension name).2 = none) :
    (splitExtension name).1 = name := by
  rw [splitExtension] at plain ⊢
  split at plain <;> simp_all

theorem joinWith_ending (sep : List Char) (inner : List (List Char)) (name ending : List Char) :
    joinWith sep (inner ++ [name ++ ending]) = joinWith sep (inner ++ [name]) ++ ending := by
  by_cases none : inner = []
  · rw [none]
    rfl
  · rw [joinWith_append sep none (by simp), joinWith_append sep none (by simp)]
    simp only [joinWith, List.append_assoc]

theorem ofParts_ending (start : Start) (inner : List (List Char)) (name ending : List Char) :
    (ofParts start (inner ++ [name ++ ending])).text.toList
      = (ofParts start (inner ++ [name])).text.toList ++ ending := by
  cases start with
  | root => rw [ofParts_root, ofParts_root, joinWith_ending, List.cons_append]
  | here =>
    rw [ofParts_here, ofParts_here]
    exact joinWith_ending _ (['.'] :: inner) name ending
  | bare => rw [ofParts_bare, ofParts_bare, joinWith_ending]

theorem ofParts_append (start : Start) {xs ys : List (List Char)} (before : xs ≠ [])
    (after : ys ≠ []) : (ofParts start (xs ++ ys)).text.toList
      = (ofParts start xs).text.toList ++ '/' :: joinWith ['/'] ys := by
  cases start with
  | root =>
    rw [ofParts_root, ofParts_root, joinWith_append _ before after]
    simp
  | here =>
    rw [ofParts_here, ofParts_here, ← List.cons_append, joinWith_append _ (by simp) after]
    simp
  | bare =>
    rw [ofParts_bare, ofParts_bare, joinWith_append _ before after]
    simp

/-- A path whose last name got an ending. What followed the name leads nowhere and is gone. -/
def Appended (p : Path) (ending : String) (q : Path) : Prop :=
  ∃ front tail name : List Char, p.text.toList = front ++ tail ∧
    p.fileName? = some name ∧ name <:+ front ∧
    (∀ s ∈ splitAtEach isSeparator tail, isSilent s = true) ∧
    q.text.toList = front ++ ending.toList

theorem fileName?_some {p : Path} {name : List Char} (named : p.fileName? = some name) :
    p.significant = p.significant.dropLast ++ [name] := by
  obtain ⟨last, _⟩ := Option.filter_eq_some_iff.1 named
  obtain ⟨inner, ends⟩ := List.getLast?_eq_some_iff.1 last
  rw [ends, List.dropLast_concat]

theorem withExtension_text {p : Path} {name : List Char} (named : p.fileName? = some name)
    (plain : (splitExtension name).2 = none) (ext : String) :
    (p.withExtension ext).text.toList
      = (ofParts p.start p.significant).text.toList ++ '.' :: ext.toList := by
  simp only [withExtension, named, splitExtension_plain plain]
  conv_rhs => rw [fileName?_some named]
  exact ofParts_ending _ _ name _

theorem withExtension_named {p : Path} {before : List (List Char)} {name : List Char}
    (split : p.segments = before ++ [name]) (named : isSilent name = false)
    (downward : isUpward name = false) (plain : (splitExtension name).2 = none) (ext : String) :
    p.withExtension ext = ⟨p.text ++ "." ++ ext⟩ := by
  obtain ⟨inner, ends, stops, _⟩ := significant_named split named
  have text := withExtension_text (fileName?_named split named downward) plain ext
  rw [stops, ← ends, ofParts_body] at text
  have same : (p.withExtension ext).text = p.text ++ "." ++ ext := by
    rw [← String.toList_inj, text]
    simp
  rw [← same]

theorem withExtension_appended {p : Path} {name : List Char} (named : p.fileName? = some name)
    (plain : (splitExtension name).2 = none) (ext : String) :
    Appended p ("." ++ ext) (p.withExtension ext) := by
  have ends := fileName?_some named
  have text := withExtension_text named plain ext
  have suffix : name <:+ (ofParts p.start p.significant).text.toList := by
    rw [ends]
    exact ⟨_, (ofParts_ending p.start p.significant.dropLast [] name).symm⟩
  obtain ⟨rest, body, silent⟩ := significant_rest p
  cases rest with
  | nil =>
    refine ⟨_, [], name, ?_, named, suffix, by simp [splitAtEach, isSilent], by simpa using text⟩
    rw [List.append_nil, ← ofParts_body p, body, List.append_nil]
  | cons s rest =>
    have some : p.significant ≠ [] := by
      rw [ends]
      simp
    have free : ∀ piece ∈ s :: rest, ∀ x ∈ piece, isSeparator x = false := by
      intro piece member
      have nowhere := silent piece member
      simp only [isSilent, Bool.or_eq_true, decide_eq_true_eq] at nowhere
      rcases nowhere with rfl | rfl <;> simp [isSeparator]
    refine ⟨_, '/' :: joinWith ['/'] (s :: rest), name, ?_, named, suffix, ?_, by simpa using text⟩
    · rw [← ofParts_body p, body, ofParts_append _ some (by simp)]
    · rw [splitAtEach_separator rfl, splitAtEach_joinWith rfl (by simp) free]
      exact List.forall_mem_cons.2 ⟨rfl, silent⟩

end Path

end BladeForm
